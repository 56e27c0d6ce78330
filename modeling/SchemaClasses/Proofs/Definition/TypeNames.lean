import SchemaClasses.Proofs.Builder.Reachability
import SchemaClasses.Proofs.Definition.Endings
import SchemaClasses.Proofs.Derivation.Bases

/-! The type names in generated code. Every superclass and every type of an accessor is defined along with
the class that names it, or it is the root of all classes. -/

namespace SchemaClasses

namespace Style

def Knows (style : Style) (definitions : List Definition) (name : String) : Prop :=
  name = style.rootType ∨ ∃ definition ∈ definitions, definition.name = name

/-- Definitions that name no type but those that they define and the root. An accessor stands for a field of a
builder that the definition was made from. -/
structure Resolved (style : Style) (builders : Builders) (definitions : List Definition) : Prop where
  superclass : ∀ definition ∈ definitions, ∀ name, definition.superclass = some name → style.Knows definitions name
  accessor : ∀ definition ∈ definitions, ∀ accessor ∈ definition.accessors, ∃ owner field layers name,
    (builders.get owner).className = some definition.name ∧ field ∈ (builders.get owner).fields ∧
      builders.fieldName? field = some accessor.name ∧ style.Layers builders field layers name ∧
        accessor.typeName = vectors layers name ∧ style.Knows definitions name

end Style

namespace Rendering
variable {style : Style} {builders : Builders} {ids : List BuilderId} {id : BuilderId}

abbrev definitions (style : Style) (builders : Builders) (ids : List BuilderId) : List Definition :=
  (ids.filterMap (ofBuilder? style builders)).map Rendering.definition

theorem knows_of_mem {rendering : Rendering} (member : id ∈ ids)
    (found : ofBuilder? style builders id = some rendering) :
    style.Knows (definitions style builders ids) rendering.definition.name :=
  Or.inr ⟨_, List.mem_map_of_mem (List.mem_filterMap.mpr ⟨id, member, found⟩), rfl⟩

theorem knows_builtin {type : Builtin} (member : id ∈ ids) (builtin : (builders.get id).builtin? = some type) :
    style.Knows (definitions style builders ids) type.label :=
  have made : ofBuilder? style builders id = some (ofBuiltin style type) := by simp only [ofBuilder?, builtin]
  knows_of_mem member made

section Written
variable (written : (ofBuilders? style builders ids).isSome)
include written

theorem knows_className {name : String} (member : id ∈ ids) (plain : (builders.get id).builtin? = none)
    (named : (builders.get id).className = some name) : style.Knows (definitions style builders ids) name := by
  obtain ⟨rendering, made⟩ :=
    Option.isSome_iff_exists.mp (isSome_ofBuilder?_of_mem written member (by simp [isDefined, named]))
  rcases ofBuilder?_eq_some_iff.mp made with ⟨_, builtin, _⟩ | ⟨_, _, _, own, _, rfl⟩
  · cases plain.symm.trans builtin
  · cases named.symm.trans own
    exact knows_of_mem member made

theorem knows_layers {layers : Nat} {name : String} (closed : builders.Closed ids)
    (layered : style.Layers builders id layers name) (member : id ∈ ids) :
    style.Knows (definitions style builders ids) name := by
  induction layered with
  | @single id single =>
    cases builtin : (builders.get id).builtin? with
    | some type => exact knows_builtin member builtin
    | none =>
      cases named : (builders.get id).className with
      | some name => exact knows_className written member builtin named
      | none => exact Or.inl rfl
  | untyped => exact Or.inl rfl
  | @item id inner layers name holds layered ih =>
    exact ih (closed id member inner (Builders.mem_links.mpr (Or.inr (Or.inl holds.2))))

/-- A superclass is named by its class name first, and a base that has one stands for no built-in type. -/
theorem knows_superclass (closed : builders.Closed ids) (member : id ∈ ids)
    (named : ∀ base, (builders.get id).base = some base → (builders.get base).builtin? = none ∨
      (builders.get base).className = none) :
    style.Knows (definitions style builders ids) (style.superclass builders id) := by
  cases found : (builders.get id).base with
  | none => exact Or.inl (by simp only [Style.superclass, found])
  | some base =>
    have among : base ∈ ids := closed id member base (Builders.mem_links.mpr (Or.inl found))
    cases own : (builders.get base).className with
    | some name =>
      have plain := (named base found).resolve_right (by simp [own])
      have known : style.Knows (definitions style builders ids) name := knows_className written among plain own
      simpa [Style.superclass, found, own] using known
    | none =>
      cases builtin : (builders.get base).builtin? with
      | some type =>
        have known : style.Knows (definitions style builders ids) type.label := knows_builtin among builtin
        simpa [Style.superclass, found, own, builtin] using known
      | none => exact Or.inl (by simp [Style.superclass, found, own, builtin])

end Written

/-- A definition is an alias of a built-in type, or it says what the class of a builder extends and holds. -/
theorem definition_cases {definition : Definition} (member : definition ∈ definitions style builders ids) :
    ∃ id ∈ ids, (definition.superclass = none ∧ definition.accessors = []) ∨
      ((builders.get id).className = some definition.name ∧
        definition.superclass = some (style.superclass builders id) ∧
        accessors? style builders (builders.get id).fields = some definition.accessors) := by
  obtain ⟨rendering, listed, rfl⟩ := List.mem_map.mp member
  obtain ⟨id, among, found⟩ := List.mem_filterMap.mp listed
  rcases ofBuilder?_eq_some_iff.mp found with ⟨_, _, rfl⟩ | ⟨_, _, _, named, written, rfl⟩
  · exact ⟨id, among, Or.inl ⟨rfl, rfl⟩⟩
  · exact ⟨id, among, Or.inr ⟨named, rfl, written⟩⟩

/-- The definitions of builders and of all that they lead to name no other types. -/
theorem resolved (written : (ofBuilders? style builders ids).isSome) (closed : builders.Closed ids)
    (named : ∀ id ∈ ids, ∀ base, (builders.get id).base = some base →
      (builders.get base).builtin? = none ∨ (builders.get base).className = none) :
    style.Resolved builders (definitions style builders ids) := by
  constructor
  · intro definition member name superclass
    obtain ⟨id, among, ⟨none, _⟩ | ⟨_, own, _⟩⟩ := definition_cases member
    · cases none.symm.trans superclass
    · cases own.symm.trans superclass
      exact knows_superclass written closed among (named id among)
  · intro definition member accessor listed
    obtain ⟨id, among, ⟨_, none⟩ | ⟨owned, _, own⟩⟩ := definition_cases member
    · rw [none] at listed
      cases listed
    · obtain ⟨field, holds, made⟩ := (mem_accessors? own).mp listed
      obtain ⟨called, typed⟩ := accessor?_eq_some_iff.mp made
      obtain ⟨layers, _, type, layered, text⟩ := Style.layers_of_typeNameWithin? typed
      have linked := closed id among field (Builders.mem_links.mpr (Or.inr (Or.inr holds)))
      exact ⟨id, field, layers, type, owned, holds, called, layered, text, knows_layers written closed layered linked⟩

end Rendering

namespace Schema
variable {schema : Schema} {before after : Derivation} {style : Style} {result : List Definition}

/-- What asks for definitions asks for builders, and writes down the definitions of these and of all that they
lead to. -/
theorem definitions_writes (gives : (schema.definitions style).Gives before result after) :
    ∃ roots middle, schema.classBuilders.Gives before roots middle ∧ after.stage = middle.stage ∧
      ∃ renderings, Rendering.ofBuilders? style after.builders (after.builders.closure roots) = some renderings ∧
        result = renderings.map Rendering.definition := by
  obtain ⟨roots, middle, asked, gives⟩ := gives.bind
  obtain ⟨_, _, ⟨⟩, gives⟩ := gives.bind
  obtain ⟨_, _, noticed, gives⟩ := gives.bind
  obtain ⟨renderings, _, lifted, rest⟩ := gives.bind
  obtain ⟨written, rfl⟩ := Derive.Gives.lift_iff.mp lifted
  obtain ⟨_, _, reported, last⟩ := rest.bind
  obtain ⟨rfl, rfl⟩ := last.pure
  have same : after.stage = middle.stage := by
    rw [(Derive.reports_stage reported).1, noticed.report, Derivation.stage_report]
  have builders : after.builders = middle.builders := congrArg Stage.builders same
  exact ⟨roots, middle, asked, same, renderings, by rw [builders]; exact written, rfl⟩

theorem definitions_gives (gives : (schema.definitions style).Gives before result after) :
    ∃ roots middle, schema.classBuilders.Gives before roots middle ∧ after.stage = middle.stage ∧
      result = Rendering.definitions style after.builders (after.builders.closure roots) := by
  obtain ⟨roots, middle, asked, same, renderings, written, rfl⟩ := definitions_writes gives
  exact ⟨roots, middle, asked, same, by rw [Rendering.definitions, ← Rendering.ofBuilders?_eq written]⟩

theorem definitions_total {roots : List BuilderId} {middle : Derivation}
    (asked : schema.classBuilders.Gives before roots middle)
    (written : (Rendering.ofBuilders? style middle.builders (middle.builders.closure roots)).isSome) :
    ∃ result after, (schema.definitions style).Gives before result after := by
  obtain ⟨renderings, written⟩ := Option.isSome_iff_exists.mp written
  obtain ⟨after, reported⟩ := Derive.reports_total (renderings.flatMap Rendering.notices)
    (middle.report (.renderingBuilders (middle.builders.closure roots).length))
  have got : (get : Derive Derivation).Gives middle middle middle := rfl
  have noticed : (Derive.report (.renderingBuilders (middle.builders.closure roots).length)).Gives middle ()
      (middle.report (.renderingBuilders (middle.builders.closure roots).length)) := rfl
  exact ⟨_, _, asked.then (got.then
    (noticed.then ((Derive.Gives.lift_iff.mpr ⟨written, rfl⟩).then (reported.then rfl))))⟩

/-- The classes that definitions are made of have no field whose type has no end. -/
def RenderingEnds (schema : Schema) (derivation : Derivation) : Prop :=
  ∀ roots after, schema.classBuilders.Gives derivation roots after →
  ∀ id ∈ after.builders.closure roots, after.builders.FieldsEnd id

theorem classBuilders_lt (loaded : schema.Loaded) (ready : before.Ready schema.nodes) {roots : List BuilderId}
    (gives : schema.classBuilders.Gives before roots after) : ∀ root ∈ roots, root < after.builders.size := by
  obtain ⟨_, _, _, rfl, run⟩ := fields_run loaded loaded.root_lt loaded.root_isGroup ready.fits gives
  exact run.outcome_lt (run.growth ready.whole Stage.nowhere).whole

/-- Definitions are written down if and only if their classes have no field whose type has no end. -/
theorem definitions_answered_iff {roots : List BuilderId} (asked : schema.classBuilders.Gives before roots after)
    (range : after.builders.InRange) (within : ∀ root ∈ roots, root < after.builders.size) :
    (∃ result final, (schema.definitions style).Gives before result final) ↔ schema.RenderingEnds before := by
  have inside : ∀ id ∈ after.builders.closure roots, id < after.builders.size :=
    Builders.closure_invariant within fun id inside next linked => range id inside next linked
  have written := @Rendering.isSome_ofBuilders?_iff style after.builders _ range inside
  constructor
  · rintro ⟨_, final, gives⟩ _ _ again
    obtain ⟨_, _, reasked, same, renderings, made, rfl⟩ := definitions_writes gives
    cases Option.some.inj (asked.symm.trans reasked)
    cases Option.some.inj (asked.symm.trans again)
    have builders : final.builders = after.builders := congrArg Stage.builders same
    rw [builders] at made
    exact written.mp (Option.isSome_of_eq_some made)
  · exact fun ends => definitions_total asked (written.mpr (ends roots after asked))

/-- Whatever was derived before, the definitions of a schema name only each other, built-in types that they
define as well, and the root of all classes. They are written down unless one of the types has no end. -/
theorem definitions_resolved (loaded : schema.Loaded) (top : schema.nodes.TypesOnTop) (acyclic : schema.nodes.Acyclic)
    {calls : List Call} (allowed : ∀ call ∈ calls, call.Allowed schema) (style : Style) :
    ∃ before, schema.After calls before ∧
      ((∃ definitions after, (schema.definitions style).Gives before definitions after) ↔ schema.RenderingEnds before) ∧
      ∀ definitions after, (schema.definitions style).Gives before definitions after →
        style.Resolved after.builders definitions := by
  obtain ⟨before, answered⟩ := after_total loaded acyclic allowed
  have reached := answered.reached loaded allowed
  obtain ⟨roots, middle, asked⟩ := (classBuilders_answers loaded before reached).2 acyclic
  obtain ⟨ledger, derived⟩ := ((classBuilders_answers loaded before reached).1 roots middle asked).derived
  have range : middle.builders.InRange := derived.inRange
  have within : ∀ root ∈ roots, root < middle.builders.size := classBuilders_lt loaded reached.ready asked
  have inside : ∀ id ∈ middle.builders.closure roots, id < middle.builders.size :=
    Builders.closure_invariant within fun id inside next linked => range id inside next linked
  refine ⟨before, answered, definitions_answered_iff asked range within, fun definitions after gives => ?_⟩
  obtain ⟨_, _, reasked, same, renderings, written, rfl⟩ := definitions_writes gives
  cases Option.some.inj (asked.symm.trans reasked)
  have builders : after.builders = middle.builders := congrArg Stage.builders same
  rw [builders] at written ⊢
  rw [Rendering.ofBuilders?_eq written]
  refine Rendering.resolved (Option.isSome_of_eq_some written) Builders.closure_closed fun id member base found => ?_
  exact derived.base_named loaded.formed top (inside id member) found

set_option maxRecDepth 8000 in
theorem definitions_resolved_entwined : entwined.Loaded ∧ entwined.nodes.TypesOnTop ∧ entwined.nodes.Acyclic ∧
    (∀ call ∈ [Call.tags], call.Allowed entwined) ∧
      ∃ before definitions after, entwined.After [.tags] before ∧
        (entwined.definitions {}).Gives before definitions after ∧
        ({} : Style).Resolved after.builders definitions := by
  have allowed : ∀ call ∈ [Call.tags], call.Allowed entwined := fun call member =>
    entwined_allowed call (List.mem_singleton.mp member ▸ by simp)
  obtain ⟨before, answered, _, resolved⟩ :=
    definitions_resolved entwined_loaded entwined_top entwined_acyclic allowed {}
  have outcome : ((entwined.answerAll [.tags] >>= fun _ => entwined.definitions {}).run
      entwined.derivation).isSome := by cbv
  obtain ⟨⟨definitions, after⟩, ran⟩ := Option.isSome_iff_exists.mp outcome
  obtain ⟨_, middle, asked, gives⟩ := Derive.Gives.bind ran
  cases Option.some.inj (answered.symm.trans asked)
  exact ⟨entwined_loaded, entwined_top, entwined_acyclic, allowed, before, definitions, after, answered, gives,
    resolved _ _ gives⟩

end Schema

end SchemaClasses
