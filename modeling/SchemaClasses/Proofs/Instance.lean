import SchemaClasses.Instance
import SchemaClasses.Proofs.Json

/-! Objects and their JSON. What an object does not hold is left out of its JSON, and no object holds anything
that is written as nothing, so the parts of an object can be looked up in its members, and two objects with one
text are the same. -/

namespace SchemaClasses.Instance

section Members
variable {className tagName : String} {content : Option String} {attributes : Entries String}
  {fields : List (String × Json)}

theorem lookup_content :
    (members className tagName content attributes fields).lookup "content" = content.map .string := by
  cases content <;> cases attributes <;> cases fields <;> rfl

theorem lookup_attributes : (members className tagName content attributes fields).lookup "attributes" =
    if attributes.isEmpty then none else some (.object (attributes.map fun (key, value) => (key, .string value))) := by
  cases content <;> cases attributes <;> cases fields <;> rfl

theorem lookup_fields : (members className tagName content attributes fields).lookup "fields" =
    if fields.isEmpty then none else some (.object fields) := by
  cases content <;> cases attributes <;> cases fields <;> rfl

theorem present_inj {entries others : List (String × Json)}
    (same : (if entries.isEmpty then none else some (Json.object entries)) = if others.isEmpty then none else some
      (.object others)) :
    entries = others := by
  cases entries <;> cases others <;> simp_all

theorem attributesToJson_injective :
    Function.Injective fun attributes : Entries String => attributes.map fun (key, value) =>
    (key, Json.string value) := by
  refine List.map_injective_iff.mpr ?_
  rintro ⟨key, value⟩ ⟨name, other⟩ same
  cases same
  rfl

theorem members_inj {className' tagName' : String} {content' : Option String} {attributes' : Entries String}
    {fields' : List (String × Json)}
    (same : members className tagName content attributes fields = members className' tagName' content'
      attributes' fields') :
    className = className' ∧ tagName = tagName' ∧ content = content' ∧ attributes = attributes' ∧ fields = fields' := by
  have looked (key : String) := congrArg (List.lookup key) same
  refine ⟨?_, ?_, ?_, ?_, ?_⟩
  · exact Json.string.inj (Option.some.inj (looked "class_name"))
  · exact Json.string.inj (Option.some.inj (looked "tag_name"))
  · have texts := looked "content"
    rw [lookup_content, lookup_content] at texts
    exact Option.map_injective (fun _ _ => Json.string.inj) texts
  · have entries := looked "attributes"
    rw [lookup_attributes, lookup_attributes] at entries
    exact attributesToJson_injective (present_inj (by simpa using entries))
  · have entries := looked "fields"
    rw [lookup_fields, lookup_fields] at entries
    exact present_inj entries

end Members

mutual

theorem toJson_inj : ∀ {object other : Instance}, object.toJson = other.toJson → object = other
  | ⟨_, _, _, _, fields⟩, ⟨_, _, _, _, others⟩, same => by
    obtain ⟨rfl, rfl, rfl, rfl, nested⟩ := members_inj (Json.object.inj same)
    rw [fieldsToJson_inj nested]

theorem fieldsToJson_inj :
    ∀ {fields others : List (String × List Instance)}, fieldsToJson fields = fieldsToJson others → fields = others
  | [], [], _ => rfl
  | (field, values) :: fields, (name, wanted) :: others, same => by
    obtain ⟨first, rest⟩ := List.cons.inj same
    obtain ⟨rfl, items⟩ := Prod.mk.inj first
    rw [valuesToJson_inj (Json.array.inj items), fieldsToJson_inj rest]

theorem valuesToJson_inj :
    ∀ {values others : List Instance}, valuesToJson values = valuesToJson others → values = others
  | [], [], _ => rfl
  | value :: values, other :: others, same => by
    obtain ⟨first, rest⟩ := List.cons.inj same
    rw [toJson_inj first, valuesToJson_inj rest]

end

/-- The text of an object on one line tells everything about it: its class, tag, content and attributes, and its
fields with all objects in them. -/
theorem json_lossless (object other : Instance) : object.toJson.compact = other.toJson.compact ↔ object = other :=
  ⟨fun same => toJson_inj (Json.compact_injective same), fun same => same ▸ rfl⟩

end SchemaClasses.Instance
