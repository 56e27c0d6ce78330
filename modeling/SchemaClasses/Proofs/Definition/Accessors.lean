import SchemaClasses.Proofs.Definition.FieldKeys
import SchemaClasses.Proofs.Definition.TypeNames
import SchemaClasses.Proofs.Derivation.Holdings

/-! The accessors of a class. Nothing removes a field that comes up twice, so that the names of accessors are as
distinct as the names of the fields that a class lists. Elements and attributes go into one struct, and
different names can become one when they are written as a field. -/

namespace SchemaClasses

namespace Builder
variable {builder : Builder} {key : String}

theorem fieldName_cases (named : builder.fieldName? = some key) :
    ∃ label, key = Name.field label ∧
    (builder.fieldTag = some label ∨ builder.fieldTag = none ∧ builder.GoesBy label) := by
  obtain ⟨label, found, rfl⟩ := Option.map_eq_some_iff.mp named
  refine ⟨label, rfl, ?_⟩
  cases tag : builder.fieldTag with
  | some name => exact Or.inl (by simpa [tag] using found)
  | none =>
    refine Or.inr ⟨rfl, ?_⟩
    cases class? : builder.className with
    | some name => exact Or.inl (by simpa [tag, class?] using found)
    | none => exact Or.inr (by simpa [tag, class?] using found)

end Builder

namespace Nodes

/-- What a node may be called as a field. It is called by its title, like the node that it shares its builder
with or, if nothing else names it, by its class or its built-in type. -/
inductive Called (nodes : Nodes) : NodeId → String → Prop where
  | titled {id name} (title : nodes.title id = some name) : Called nodes id (Name.field name)
  | shared {id referenced key} (plan : nodes.plan id = .share referenced) (called : Called nodes referenced key) :
      Called nodes id key
  | untitled {id label} (untitled : nodes.title id = none) (labels : nodes.Labels id label) :
      Called nodes id (Name.field label)

variable {nodes : Nodes} {id referenced : NodeId} {name key : String}

theorem title_of_share (plan : nodes.plan id = .share referenced) : nodes.title id = none := by
  rw [title, plan]

theorem called_iff_of_title (title : nodes.title id = some name) : nodes.Called id key ↔ key = Name.field name := by
  constructor
  · intro called
    cases called with
    | titled same =>
      cases title.symm.trans same
      rfl
    | shared plan => cases title.symm.trans (title_of_share plan)
    | untitled none => cases title.symm.trans none
  · rintro rfl
    exact .titled title

/-- No two fields that a class lists have the same name. Elements and attributes are taken together, also those
of groups, and names as they are written for fields. -/
def DistinctFields (nodes : Nodes) : Prop :=
  ∀ id, (nodes.kindOf id).isDeclaration ∨ (nodes.kindOf id).isType →
    (nodes.classFields id).Pairwise fun first second => ∀ key, nodes.Called first key → ¬nodes.Called second key

/-- Whether the fields of a class have titles that stay distinct when they are written for fields. -/
def hasDistinctTitles (nodes : Nodes) (id : NodeId) : Bool :=
  (nodes.classFields id).all (fun field => (nodes.title field).isSome)
    && decide ((nodes.classFields id).map fun field => (nodes.title field).map Name.field).Nodup

theorem distinctFields_of_titles (titles : (List.range nodes.size).all fun id =>
    !((nodes.kindOf id).isDeclaration || (nodes.kindOf id).isType) || nodes.hasDistinctTitles id) :
    nodes.DistinctFields := by
  intro id kind
  have inside : id < nodes.size :=
    @lt_of_get nodes id (fun node => node.kind.isDeclaration ∨ node.kind.isType) kind (by decide)
  have own := List.all_eq_true.mp titles id (List.mem_range.mpr inside)
  simp only [hasDistinctTitles, (Bool.or_eq_true _ _).mpr kind, Bool.not_true, Bool.false_or,
    Bool.and_eq_true, List.all_eq_true, decide_eq_true_eq] at own
  obtain ⟨titled, distinct⟩ := own
  refine (List.pairwise_map.mp distinct).imp_of_mem fun {first second} left right different key called again =>
    different ?_
  obtain ⟨name, title⟩ := Option.isSome_iff_exists.mp (titled first left)
  obtain ⟨other, known⟩ := Option.isSome_iff_exists.mp (titled second right)
  rw [title, known, Option.map_some, Option.map_some, ← (called_iff_of_title title).mp called,
    ← (called_iff_of_title known).mp again]

end Nodes

namespace Stage
variable {nodes : Nodes} {stage : Stage}

theorem Belongs.called {id : NodeId} {builder : BuilderId} {key : String} (belongs : stage.Belongs nodes id builder)
    (formed : nodes.Formed) (titled : stage.Titled nodes) (stemmed : stage.Stemmed nodes) (apart : ¬nodes.Embedded id)
    (named : stage.builders.fieldName? builder = some key) : nodes.Called id key := by
  induction belongs with
  | @own id builder found alone =>
    have owns : nodes.Owns id := ⟨apart, alone⟩
    have tag := titled id builder owns found
    obtain ⟨label, rfl, same | ⟨none, goes⟩⟩ := Builder.fieldName_cases named
    · exact .titled (tag.symm.trans same)
    · exact .untitled (tag.symm.trans none) (stemmed.labels id builder owns found label goes)
  | share found plan belongs ih => exact .shared plan (ih (formed.share_apart plan) named)

/-- The fields of a class have distinct names, as the nodes that they come from have. -/
theorem Stemmed.distinct (stemmed : stage.Stemmed nodes) (settled : stage.Settled nodes) (formed : nodes.Formed)
    (distinct : nodes.DistinctFields) {builder : BuilderId} {className : String}
    (named : (stage.builders.get builder).className = some className) :
    ((stage.builders.get builder).fields.filterMap stage.builders.fieldName?).Nodup := by
  obtain ⟨id, stems⟩ := stemmed.stems builder
  obtain ⟨chosen, among, found, apart⟩ := stems.fields
  have listed := (distinct id (formed.labels_kind (stems.named className named))).sublist among
  have each : (chosen.map stage.memo).Pairwise fun first second =>
      ∀ left right, first = some left → second = some right → ∀ key, stage.builders.fieldName? left = some key →
        stage.builders.fieldName? right ≠ some key := by
    refine List.pairwise_map.mpr
      (listed.imp_of_mem fun {first second} own other different left right known held key named again => ?_)
    have called {id : NodeId} {builder : BuilderId} (member : id ∈ chosen) (found : stage.memo id = some builder)
        (named : stage.builders.fieldName? builder = some key) : nodes.Called id key :=
      (settled.shared id builder found).called formed settled.titled stemmed (apart id member) named
    exact different key (called own known named) (called other held again)
  rw [← found] at each
  rw [List.Nodup, List.pairwise_filterMap]
  refine (List.pairwise_map.mp each).imp fun different key named other again same => ?_
  exact different _ _ rfl rfl key named (same ▸ again)

end Stage

namespace Definition
variable (definition : Definition)

/-- The fields that the struct declares: one for the base, if there is one, and one for each accessor. -/
def declared : List (String × String) :=
  (definition.base?.map fun base => ("base", base)).toList ++ definition.accessors.map fun accessor =>
    (accessor.name, accessor.typeName)

theorem structText_eq : definition.structText =
    if definition.declared = [] then "pub struct " ++ definition.name ++ ";\n"
    else "pub struct " ++ definition.name ++ " \x7b\n"
      ++ String.join (definition.declared.map fun (name, typeName) => definition.fieldLine name typeName)
      ++ "\x7d\n" := by
  rw [structText, declared]
  cases base : definition.base? with
  | none =>
    cases definition.accessors with
    | nil => rfl
    | cons => simp [String.join_cons, Function.comp_def]
  | some base => simp [String.join_cons, String.append_assoc, Function.comp_def]

theorem declared_names : definition.declared.map Prod.fst =
    (definition.base?.map fun _ => "base").toList ++ definition.accessors.map Accessor.name := by
  rw [declared, List.map_append, List.map_map]
  cases definition.base? <;> rfl

def outline : String × List String × List Check × List String :=
  (definition.name, definition.accessors.map Accessor.name, definition.checks, definition.declared.map Prod.fst)

/-- Accessors have distinct names, and no two checks are for one field. The struct declares no field twice,
except that a class with a base may have an accessor which is called like the field for the base. -/
structure FieldsApart : Prop where
  accessors : (definition.accessors.map Accessor.name).Nodup
  checks : ∀ field, definition.checks.count (.fieldValid field) ≤ 1
  declared : definition.base? = none ∨ "base" ∉ definition.accessors.map Accessor.name →
    (definition.declared.map Prod.fst).Nodup

end Definition

theorem Check.ofRule?_ne_fieldValid {rule : Rule} {field : String} : ofRule? rule ≠ some (.fieldValid field) := by
  intro made
  cases rule with
  | numeric facet limit => cases facet <;> cases made
  | _ => cases made

namespace Rendering
variable {style : Style} {builders : Builders} {id : BuilderId}

theorem fieldsApart (names : ∀ className, (builders.get id).className = some className →
      ((builders.get id).fields.filterMap builders.fieldName?).Nodup)
    {rendering : Rendering} (rendered : ofBuilder? style builders id = some rendering) :
    rendering.definition.FieldsApart := by
  rcases ofBuilder?_eq_some_iff.mp rendered with ⟨_, _, rfl⟩ | ⟨_, className, accessors, named, written, rfl⟩
  · exact ⟨List.nodup_nil, fun _ => Nat.zero_le _, fun _ => List.nodup_nil⟩
  · generalize definition : (ofClass style builders id className accessors).definition = own
    have accessors : (own.accessors.map Accessor.name).Nodup :=
      definition ▸ (accessors?_names written).symm ▸ names className named
    refine ⟨accessors, fun field => ?_, fun apart => ?_⟩
    · have checks : own.checks = (own.accessors.map Accessor.name).map .fieldValid ++
          (builders.rules id).filterMap Check.ofRule? := by
        rw [← definition, List.map_map]
        rfl
      have rules : .fieldValid field ∉ (builders.rules id).filterMap Check.ofRule? := by
        intro listed
        obtain ⟨rule, _, made⟩ := List.mem_filterMap.mp listed
        exact Check.ofRule?_ne_fieldValid made
      rw [checks, List.count_append, List.count_eq_zero.mpr rules, Nat.add_zero]
      exact List.nodup_iff_count_le_one.mp (accessors.map fun _ _ => Check.fieldValid.inj) _
    · rw [Definition.declared_names]
      rcases apart with none | apart
      · rw [none]
        exact accessors
      · cases own.base? with
        | none => exact accessors
        | some base => exact List.nodup_cons.mpr ⟨apart, accessors⟩

end Rendering

namespace Schema

/-- Whatever was asked of a schema before, in every definition the accessors have distinct names and no check
for a field is there twice, if no two fields that a class lists have the same name. -/
theorem accessors_distinct {schema : Schema} (loaded : schema.Loaded) (distinct : schema.nodes.DistinctFields)
    {requests : List Request} (inside : ∀ request ∈ requests, request.Inside schema) (style : Style)
    {replies : List Reply} {before after : Derivation} {definitions : List Definition}
    (asked : (schema.replies requests).Gives schema.derivation replies before)
    (gives : (schema.definitions style).Gives before definitions after) :
    ∀ definition ∈ definitions, definition.FieldsApart := by
  obtain ⟨tenable, _⟩ := (replies_safe loaded inside).grows tenable_start asked
  obtain ⟨held, _⟩ := (definitions_safe loaded style).grows tenable gives
  obtain ⟨_, answered⟩ := held.answered
  have stemmed := answered.stemmed loaded.formed
  obtain ⟨_, _, _, _, rfl⟩ := definitions_gives gives
  intro definition member
  obtain ⟨rendering, listed, rfl⟩ := List.mem_map.mp member
  obtain ⟨id, _, rendered⟩ := List.mem_filterMap.mp listed
  exact Rendering.fieldsApart
    (fun className named => stemmed.distinct held.settled loaded.formed distinct named) rendered

set_option maxRecDepth 8000 in
theorem accessors_distinct_entwined : entwined.Loaded ∧ entwined.nodes.DistinctFields ∧
    (∀ request ∈ [Request.tags], request.Inside entwined) ∧ ∃ replies before definitions after,
      (entwined.replies [.tags]).Gives entwined.derivation replies before ∧
      (entwined.definitions {}).Gives before definitions after ∧
        ∀ definition ∈ definitions, definition.FieldsApart := by
  have distinct : entwined.nodes.DistinctFields := Nodes.distinctFields_of_titles (by cbv)
  have inside : ∀ request ∈ [Request.tags], request.Inside entwined := List.forall_mem_singleton.mpr trivial
  have answers : ((entwined.replies [.tags] >>= fun _ => entwined.definitions {}).run
      entwined.derivation).isSome := by cbv
  obtain ⟨⟨definitions, after⟩, outcome⟩ := Option.isSome_iff_exists.mp answers
  obtain ⟨replies, before, asked, gives⟩ := Derive.Gives.bind outcome
  exact ⟨entwined_loaded, distinct, inside, replies, before, definitions, after, asked, gives,
    accessors_distinct entwined_loaded distinct inside {} asked gives⟩

end Schema

/-- Inside of a complex type no two elements state the same name, and no two attributes do. -/
def Nodes.NamesApart (nodes : Nodes) : Prop :=
  ∀ type, nodes.kindOf type = .complexType → ∀ kind ∈ [Kind.element, .attr],
    (((nodes.typeFields type).filter fun field => nodes.kindOf field = kind).filterMap fun field =>
      (nodes.get field).name?).Nodup

/-- An element and an attribute have one name, two elements have names that become one, and an element of a type
that extends another is called like the field for that. -/
def Document.doubled : Document where
  elements := #[
    { name := "schema", children := #[1, 5, 9, 10] },
    { name := "complexType", attributes := [("name", "Item")], children := #[2, 4], parent := some 0 },
    { name := "sequence", children := #[3], parent := some 1 },
    { name := "element", attributes := [("name", "id")], parent := some 2 },
    { name := "attribute", attributes := [("name", "id")], parent := some 1 },
    { name := "complexType", attributes := [("name", "Pair")], children := #[6], parent := some 0 },
    { name := "sequence", children := #[7, 8], parent := some 5 },
    { name := "element", attributes := [("name", "fooBar")], parent := some 6 },
    { name := "element", attributes := [("name", "foo_bar")], parent := some 6 },
    { name := "complexType", attributes := [("name", "Root")], parent := some 0 },
    { name := "complexType", attributes := [("name", "Child")], children := #[11], parent := some 0 },
    { name := "complexContent", children := #[12], parent := some 10 },
    { name := "extension", attributes := [("base", "Root")], children := #[13], parent := some 11 },
    { name := "sequence", children := #[14], parent := some 12 },
    { name := "element", attributes := [("name", "base")], parent := some 13 }]
  root := some 0

namespace Schema

def doubled : Schema where
  nodes := #[
    { construct := .schema none, children := [⟨.complexType, 1⟩, ⟨.complexType, 5⟩, ⟨.complexType, 9⟩,
      ⟨.complexType, 10⟩] },
    { parent := some 0, construct := .complexType (some "Item") false false, children := [⟨.sequence, 2⟩, ⟨.attr, 4⟩] },
    { parent := some 1, construct := .sequence {}, children := [⟨.element, 3⟩] },
    { parent := some 2, construct := .element { name := some "id" } },
    { parent := some 1, construct := .attr { name := some "id" } },
    { parent := some 0, construct := .complexType (some "Pair") false false, children := [⟨.sequence, 6⟩] },
    { parent := some 5, construct := .sequence {}, children := [⟨.element, 7⟩, ⟨.element, 8⟩] },
    { parent := some 6, construct := .element { name := some "fooBar" } },
    { parent := some 6, construct := .element { name := some "foo_bar" } },
    { parent := some 0, construct := .complexType (some "Root") false false },
    { parent := some 0, construct := .complexType (some "Child") false false, children := [⟨.complexContent, 11⟩] },
    { parent := some 10, construct := .complexContent false, children := [⟨.extension, 12⟩] },
    { parent := some 11, construct := .extension (some (.complex 9)), children := [⟨.sequence, 13⟩] },
    { parent := some 12, construct := .sequence {}, children := [⟨.element, 14⟩] },
    { parent := some 13, construct := .element { name := some "base" } }]
  root := 0
  declarations := [("id", 3), ("fooBar", 7), ("foo_bar", 8), ("base", 14)]

set_option maxRecDepth 8000 in
theorem doubled_loaded : doubled.Loaded :=
  ⟨{}, .doubled, Array.replicate 15 none, by cbv⟩

theorem doubled_apart : doubled.nodes.NamesApart := by
  have all : (List.range 15).all fun type => [Kind.element, .attr].all fun kind => decide
      (((doubled.nodes.typeFields type).filter fun field => doubled.nodes.kindOf field = kind).filterMap fun field =>
        (doubled.nodes.get field).name?).Nodup := by cbv
  intro type isType kind listed
  have inside : type < 15 :=
    @Nodes.lt_of_get doubled.nodes type (fun node => node.kind = .complexType) isType (by decide)
  exact of_decide_eq_true (List.all_eq_true.mp (List.all_eq_true.mp all type (List.mem_range.mpr inside)) kind listed)

set_option maxRecDepth 8000 in
/-- Names of elements that differ from each other, and names of attributes that do, are not enough. -/
theorem accessors_repeated : doubled.Loaded ∧ doubled.nodes.NamesApart ∧
    ∃ definitions after, (doubled.definitions {}).Gives doubled.derivation definitions after ∧
      ("Item", ["id", "id"], [.fieldValid "id", .fieldValid "id"], ["id", "id"]) ∈ definitions.map Definition.outline ∧
      ("Pair", ["foo_bar", "foo_bar"], [.fieldValid "foo_bar", .fieldValid "foo_bar"], ["foo_bar", "foo_bar"]) ∈
        definitions.map Definition.outline ∧
      ("Child", ["base"], [.fieldValid "base"], ["base", "base"]) ∈ definitions.map Definition.outline := by
  have outcome : ((doubled.definitions {}).run doubled.derivation).map (fun outcome =>
    outcome.1.map Definition.outline) = some [
      ("Item", ["id", "id"], [.fieldValid "id", .fieldValid "id"], ["id", "id"]), ("Id", [], [], []),
      ("Id", [], [], []),
      ("Pair", ["foo_bar", "foo_bar"], [.fieldValid "foo_bar", .fieldValid "foo_bar"], ["foo_bar", "foo_bar"]),
      ("FooBar", [], [], []),
      ("FooBar", [], [], []), ("Root", [], [], []), ("Child", ["base"], [.fieldValid "base"], ["base", "base"]),
      ("Base", [], [], [])] := by
    cbv
  obtain ⟨⟨definitions, after⟩, gives, same⟩ := Option.map_eq_some_iff.mp outcome
  exact ⟨doubled_loaded, doubled_apart, definitions, after, gives, by simp [same], by simp [same], by simp [same]⟩

end Schema
end SchemaClasses
