import SchemaClasses.Definition.Collection
import SchemaClasses.Graph.Building
import SchemaClasses.Proofs.Document.Formed

/-! Validation follows the fields that are checked, and instances have their children in the fields of their tags.
So where the fields of a class are checked under the names of the tags, no child is left out. -/

namespace SchemaClasses

namespace Entries
variable {α : Type} {entries : Entries α} {key other : String} {f : Option α → α}

theorem get?_alter : (entries.alter key f).get? other = if other =
      key then some (f (entries.get? key)) else entries.get? other := by
  induction entries with
  | nil =>
    by_cases same : other = key
    · simp [alter, get?, same]
    · simp [alter, get?, same, List.lookup_cons, beq_eq_false_iff_ne.mpr same]
  | cons first rest ih =>
    obtain ⟨name, value⟩ := first
    simp only [get?] at ih ⊢
    by_cases own : name = key
    · subst own
      by_cases same : other = name
      · simp [alter, same]
      · simp [alter, same, List.lookup_cons, beq_eq_false_iff_ne.mpr same]
    · by_cases same : other = name
      · subst same
        simp [alter, own]
      · rw [alter, if_neg own, List.lookup_cons, beq_eq_false_iff_ne.mpr same, ih]
        by_cases wanted : other = key
        · subst wanted
          simp [List.lookup_cons, beq_eq_false_iff_ne.mpr same]
        · simp [wanted, List.lookup_cons, beq_eq_false_iff_ne.mpr same]

end Entries

theorem Instance.values_pushField {object value : Instance} {field key : String} :
    (object.pushField field value).values key = object.values key ++ if key = field then [value] else [] := by
  rw [values, pushField, Entries.get?_alter, values]
  by_cases same : key = field
  · simp [same]
  · simp [same]

namespace Collection
variable {collection : Collection} {object value : Instance} {definition : Definition} {key : String}

theorem validateValues_eq (values : List Instance) :
    collection.validateValues values = values.flatMap collection.validate := by
  induction values with
  | nil => rw [validateValues, List.flatMap_nil]
  | cons value values ih => rw [validateValues, List.flatMap_cons, ih]

theorem lookup_validateFields (fields : List (String × List Instance)) :
    (collection.validateFields fields).lookup key = (fields.lookup key).map collection.validateValues := by
  induction fields with
  | nil => rw [validateFields, List.lookup_nil, List.lookup_nil, Option.map_none]
  | cons field fields ih =>
    obtain ⟨name, values⟩ := field
    rw [validateFields, List.lookup_cons, List.lookup_cons, ih]
    split <;> rfl

theorem nested_reports :
    ((collection.validateFields object.fields).lookup key).getD [] =
    (object.values key).flatMap collection.validate := by
  rw [lookup_validateFields, Instance.values, Entries.get?]
  cases object.fields.lookup key with
  | none => rfl
  | some values => exact validateValues_eq values

theorem validate_eq (found : collection.find? object.className = some definition) : collection.validate object =
    definition.checks.flatMap (checkReport definition.name object (collection.validateFields object.fields)) := by
  obtain ⟨className, tagName, content, attributes, fields⟩ := object
  rw [validate]
  simp only at found
  rw [found]

/-- Every value of a field that is checked is validated. What fails in it is reported together, below the name of
the field. -/
theorem validate_field (found : collection.find? object.className = some definition)
    (checked : .fieldValid key ∈ definition.checks) (holds : value ∈ object.values key) :
    collection.validate value <:+: collection.validate object ∧
      (collection.validate value ≠ [] → definition.name ++ "::" ++ key ∈ collection.validate object) := by
  have inside : collection.validate value <:+: (object.values key).flatMap collection.validate :=
    List.infix_of_mem_flatten (List.mem_map_of_mem holds)
  have reported : checkReport definition.name object (collection.validateFields object.fields) (.fieldValid key) <:+:
      collection.validate object := by
    rw [validate_eq found]
    exact List.infix_of_mem_flatten (List.mem_map_of_mem checked)
  rw [checkReport, nested_reports] at reported
  cases failures : (object.values key).flatMap collection.validate with
  | nil =>
    have none : collection.validate value = [] := List.infix_nil.mp (failures ▸ inside)
    rw [none]
    exact ⟨List.nil_infix, fun some => absurd rfl some⟩
  | cons first rest =>
    rw [failures] at reported inside
    exact ⟨(inside.trans (List.suffix_cons _ _).isInfix).trans reported, fun _ => reported.subset List.mem_cons_self⟩

end Collection

namespace Graph
variable {graph : Graph} {child : ObjectId} {made start : Instance}

theorem addChildren_values {children : List ObjectId} (done : children.foldlM graph.addChild start = .ok made) :
    (∀ key, start.values key ⊆ made.values key) ∧
      ∀ child ∈ children, ∀ inner, graph.get? child = some inner →
        ∃ value, inner.rendered = some value ∧ value ∈ made.values (Name.field inner.tagName) := by
  induction children generalizing start with
  | nil =>
    cases done
    exact ⟨fun _ => List.Subset.refl _, List.forall_mem_nil _⟩
  | cons child children ih =>
    rw [List.foldlM_cons] at done
    cases added : graph.addChild start child with
    | error error =>
      rw [added] at done
      cases done
    | ok middle =>
      rw [added] at done
      obtain ⟨keeps, others⟩ := ih done
      unfold addChild at added
      split at added
      · next absent =>
        cases added
        refine ⟨keeps, List.forall_mem_cons.mpr ⟨fun inner found => ?_, others⟩⟩
        rw [absent] at found
        cases found
      · next object found =>
        split at added
        · next value rendered =>
          cases added
          have grown (key : String) : start.values key ⊆ made.values key := by
            refine List.Subset.trans ?_ (keeps key)
            rw [Instance.values_pushField]
            exact List.subset_append_left _ _
          have own : value ∈ made.values (Name.field object.tagName) := by
            apply keeps
            rw [Instance.values_pushField, if_pos rfl]
            exact List.mem_append_right _ List.mem_cons_self
          refine ⟨grown, List.forall_mem_cons.mpr ⟨fun inner same => ?_, others⟩⟩
          cases found.symm.trans same
          exact ⟨value, rendered, own⟩
        · cases added

end Graph

/-- Whatever instances of a class have below them under a tag is validated with them. Its instance is a value of
the field of the tag, and what fails in it is reported. -/
def Collection.Covers (collection : Collection) (schema : Schema) (className tag : String) : Prop :=
  ∀ (graph : Graph) (object : Object) (made : Instance), graph.renderObject schema object = .ok made →
  made.className = className →
    ∀ child ∈ object.children, ∀ inner, graph.get? child = some inner → inner.tagName = tag →
      ∃ value, inner.rendered = some value ∧ value ∈ made.values (Name.field tag) ∧
        collection.validate value <:+: collection.validate made ∧
          (collection.validate value ≠ [] → className ++ "::" ++ Name.field tag ∈ collection.validate made)

theorem Collection.covers_of_check {collection : Collection} {schema : Schema} {definition : Definition} {tag : String}
    (found : collection.find? definition.name = some definition)
    (checked : .fieldValid (Name.field tag) ∈ definition.checks) :
    collection.Covers schema definition.name tag := by
  intro graph object made rendered named child member inner stored tagged
  obtain ⟨className, _, added⟩ := Except.ok_of_bind rendered
  obtain ⟨_, children⟩ := Graph.addChildren_values added
  obtain ⟨value, ready, holds⟩ := children child (Array.mem_def.mp member) inner stored
  rw [tagged] at holds
  have own : collection.find? made.className = some definition := by rw [named]; exact found
  obtain ⟨within, reported⟩ := validate_field own checked holds
  exact ⟨value, ready, holds, within, reported⟩

end SchemaClasses
