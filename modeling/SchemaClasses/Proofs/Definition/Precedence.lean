import SchemaClasses.Definition.Collection
import SchemaClasses.Proofs.Derivation.Requests

/-! Which definition is kept where several have one name. It is the first, and so the definition of a declared type
is found under the name of its class, unless another declaration has a class of that name. -/

namespace SchemaClasses

namespace Collection
variable {collection : Collection} {definition : Definition} {className : String}

theorem find?_insert : (collection.insert definition).2.find? className =
    (collection.find? className).or ([definition].find? (·.name == className)) := by
  unfold insert
  split
  · next held =>
    cases own : definition.name == className with
    | false => rw [List.find?_cons_of_neg (by rw [own]; exact Bool.false_ne_true), List.find?_nil, Option.or_none]
    | true =>
      obtain ⟨earlier, listed, same⟩ := List.any_eq_true.mp held
      have found : (collection.find? className).isSome :=
        List.find?_isSome.mpr ⟨earlier, listed, eq_of_beq own ▸ same⟩
      rw [Option.or_of_isSome found]
  · exact List.find?_append

theorem find?_ofList (definitions : List Definition) :
    (ofList definitions).find? className = definitions.find? (·.name == className) := by
  have kept (collection : Collection) :
      (definitions.foldl (fun collection definition => (collection.insert definition).2) collection).find? className =
        (collection.find? className).or (definitions.find? (·.name == className)) := by
    induction definitions generalizing collection with
    | nil => rw [List.foldl_nil, List.find?_nil, Option.or_none]
    | cons definition definitions ih =>
      rw [List.foldl_cons, ih, find?_insert, Option.or_assoc, ← List.find?_append]
      rfl
  exact kept {}

end Collection

def Derivation.Defines (derivation : Derivation) (style : Style) (id : NodeId) (definition : Definition) : Prop :=
  ∃ builder rendering, derivation.builder? id = some builder ∧
  Rendering.ofBuilder? style derivation.builders builder = some rendering ∧
    rendering.definition = definition

theorem Derivation.Defines.unique {derivation : Derivation} {style : Style} {id : NodeId} {first second : Definition}
    (left : derivation.Defines style id first) (right : derivation.Defines style id second) : first = second := by
  obtain ⟨_, _, found, rendered, rfl⟩ := left
  obtain ⟨_, _, known, again, rfl⟩ := right
  cases found.symm.trans known
  cases rendered.symm.trans again
  rfl

/-- No other element, attribute or type has a class of the same name, and no built-in type is called so. -/
structure Nodes.Alone (nodes : Nodes) (id : NodeId) : Prop where
  declared : ∀ other, nodes.className? other = nodes.className? id → other = id
  builtin : ∀ type : Builtin, nodes.className? id ≠ some type.label

theorem Nodes.leaf_of_schema {nodes : Nodes} {id member : NodeId} (schema : nodes.kindOf id = .schema) {kind : Kind}
    (offered : kind ∈ [Kind.element, .complexType, .simpleType]) (listed : member ∈ (nodes.get id).childrenOf kind) :
    .leaf member ∈ nodes.parts id := by
  cases construct : (nodes.get id).construct with
  | schema =>
    rw [parts]
    simp only [construct, List.mem_map, Part.leaf.injEq, exists_eq_right, List.mem_append]
    simp only [List.mem_cons, List.not_mem_nil, or_false] at offered
    rcases offered with rfl | rfl | rfl
    · exact Or.inl (Or.inl listed)
    · exact Or.inl (Or.inr listed)
    · exact Or.inr listed
  | _ => simp [kindOf, Node.kind, construct, Construct.kind] at schema

/-- The definition of a class has the name of the class, and accessors for its fields. -/
theorem Builder.IsClass.rendered_iff {style : Style} {builders : Builders} {id : BuilderId} {className : String}
    {rendering : Rendering} (isClass : (builders.get id).IsClass className) :
    Rendering.ofBuilder? style builders id = some rendering ↔
      ∃ accessors, Rendering.accessors? style builders (builders.get id).fields = some accessors ∧
        rendering = Rendering.ofClass style builders id className accessors := by
  simp [Rendering.ofBuilder?_eq_some_iff, isClass.plain, isClass.named]

theorem Builder.IsClass.written {style : Style} {builders : Builders} {ids : List BuilderId} {id : BuilderId}
    {className : String} (isClass : (builders.get id).IsClass className)
    (written : (Rendering.ofBuilders? style builders ids).isSome) (member : id ∈ ids) :
    ∃ rendering, Rendering.ofBuilder? style builders id = some rendering ∧ rendering.definition.name = className := by
  have defined : Rendering.isDefined builders id := by simp [Rendering.isDefined, isClass.named]
  obtain ⟨rendering, rendered⟩ :=
    Option.isSome_iff_exists.mp (Rendering.isSome_ofBuilder?_of_mem written member defined)
  obtain ⟨_, _, rfl⟩ := isClass.rendered_iff.mp rendered
  exact ⟨_, rendered, rfl⟩

theorem Rendering.name_cases {style : Style} {builders : Builders} {id : BuilderId} {rendering : Rendering}
    (rendered : ofBuilder? style builders id = some rendering) :
    (∃ type : Builtin, rendering.definition.name = type.label) ∨
    (builders.get id).className = some rendering.definition.name := by
  rcases ofBuilder?_eq_some_iff.mp rendered with ⟨type, _, rfl⟩ | ⟨_, _, _, named, _, rfl⟩
  · exact Or.inl ⟨type, rfl⟩
  · exact Or.inr named

namespace Schema
variable {schema : Schema} (loaded : schema.Loaded) {before after : Derivation} {type : NodeId}
include loaded

/-- What stands directly in the schema, except for attributes, has one of the builders of the schema. -/
theorem classBuilders_has (tenable : before.Tenable schema.nodes) {roots : List BuilderId}
    (gives : schema.classBuilders.Gives before roots after) {kind : Kind}
    (offered : kind ∈ [Kind.element, .complexType, .simpleType]) {id : NodeId}
    (member : id ∈ (schema.node schema.root).childrenOf kind) :
    ∃ builder ∈ roots, after.builder? id = some builder := by
  obtain ⟨_, content, _, rfl, run⟩ := fields_run loaded loaded.root_lt loaded.root_isGroup tenable.fits gives
  have listed : id ∈ (Task.expand [] schema.root).members schema.nodes := by
    rw [Task.members, Nodes.members_of_not_mem List.not_mem_nil]
    exact List.mem_flatMap.mpr ⟨.leaf id, Nodes.leaf_of_schema loaded.root_kind offered member,
      List.mem_singleton_self id⟩
  have known : after.stage.memo id ∈ content.fields.map some := by
    rw [run.fields]
    exact List.mem_map_of_mem listed
  obtain ⟨builder, member, found⟩ := List.mem_map.mp known
  exact ⟨builder, member, found.symm⟩

/-- A type that stands directly in the schema is defined under the name of its class. -/
theorem type_defined (tenable : before.Tenable schema.nodes) {style : Style} {definitions : List Definition}
    (gives : (schema.definitions style).Gives before definitions after) {className : String} (top : schema.IsTop type)
    (isType : (schema.nodes.kindOf type).isType) (called : schema.nodes.className? type = some className) :
    ∃ own ∈ definitions, own.name = className ∧ after.Defines style type own := by
  obtain ⟨held, _⟩ := (definitions_safe loaded style).grows tenable gives
  obtain ⟨roots, middle, asked, same, renderings, written, rfl⟩ := definitions_writes gives
  have apart := top.not_embedded loaded
  obtain ⟨kind, offered, member⟩ := top
  have offered : kind ∈ [Kind.element, .complexType, .simpleType] := by
    rw [loaded.formed.child_kind member] at isType
    cases kind <;> simp_all [Kind.isType]
  obtain ⟨builder, listed, found⟩ := classBuilders_has loaded tenable asked offered member
  have found : after.builder? type = some builder := (congrFun (congrArg Stage.memo same) type).trans found
  have isClass := held.classed.types type builder className isType apart called found
  have reached : builder ∈ after.builders.closure roots := Builders.mem_closure_of_root listed
  obtain ⟨rendering, rendered, named⟩ := isClass.written (Option.isSome_of_eq_some written) reached
  have among : rendering ∈ renderings :=
    Rendering.ofBuilders?_eq written ▸ List.mem_filterMap.mpr ⟨builder, reached, rendered⟩
  exact ⟨_, List.mem_map_of_mem among, named, builder, _, found, rendered, rfl⟩

/-- A definition that has the name of the class of a type is that of the type, if no other declaration has such
a class. -/
theorem type_alone (tenable : before.Tenable schema.nodes) {style : Style} {definitions : List Definition}
    (gives : (schema.definitions style).Gives before definitions after) (isType : (schema.nodes.kindOf type).isType)
    (alone : schema.nodes.Alone type) {definition : Definition} (listed : definition ∈ definitions)
    (named : schema.nodes.className? type = some definition.name) : after.Defines style type definition := by
  obtain ⟨held, _⟩ := (definitions_safe loaded style).grows tenable gives
  obtain ⟨_, _, _, _, rfl⟩ := definitions_gives gives
  obtain ⟨rendering, made, rfl⟩ := List.mem_map.mp listed
  obtain ⟨builder, _, rendered⟩ := List.mem_filterMap.mp made
  rcases Rendering.name_cases rendered with ⟨builtin, same⟩ | owned
  · exact absurd (named.trans (congrArg some same)) (alone.builtin builtin)
  · obtain ⟨id, called, own⟩ := held.classed.sourced builder _ owned
    obtain rfl := alone.declared id (called.trans named.symm)
    exact ⟨builder, rendering, own isType, rendered, rfl⟩

/-- What is kept under the name of the class of elements of a declared type, whatever else was asked for before, is the
first definition of that name. A type that stands directly in the schema has one, and if no other declaration has a
class of that name, that is the one that is kept. -/
theorem declared_definition {requests : List Request} (inside : ∀ request ∈ requests, request.Inside schema)
    {replies : List Reply} (asked : (schema.replies requests).Gives schema.derivation replies before) {style : Style}
    {definitions : List Definition} (gives : (schema.definitions style).Gives before definitions after) {tag : String}
    {id : NodeId} {decl : ElementDecl} (declared : schema.declaration? tag = some id)
    (element : (schema.nodes.get id).construct = .element decl)
    (typed : decl.type = some (.simple type) ∨ decl.type = some (.complex type)) :
    ∃ className, schema.className tag = .ok className ∧
      (Collection.ofList definitions).find? className = definitions.find? (·.name == className) ∧
      (schema.nodes.Alone type → ∀ kept, (Collection.ofList definitions).find? className = some kept →
        after.Defines style type kept) ∧
      (schema.IsTop type → ∃ own ∈ definitions, own.name = className ∧ after.Defines style type own ∧
        (schema.nodes.Alone type → (Collection.ofList definitions).find? className = some own)) := by
  obtain ⟨tenable, _⟩ := (replies_safe loaded inside).grows tenable_start asked
  have mentioned : (schema.nodes.kindOf type).isType ∧ (schema.nodes.get type).name?.isSome := by
    have refs : (schema.nodes.get id).construct.typeRefs = decl.type.toList := congrArg Construct.typeRefs element
    rcases typed with simple | complex
    · obtain ⟨_, kind, named⟩ := loaded.formed.simple id type (by rw [refs, simple]; exact List.mem_cons_self)
      exact ⟨by rw [kind]; rfl, named⟩
    · obtain ⟨_, kind, named⟩ := loaded.formed.complex id type (by rw [refs, complex]; exact List.mem_cons_self)
      exact ⟨by rw [kind]; rfl, named⟩
  obtain ⟨isType, named⟩ := mentioned
  obtain ⟨name, named⟩ := Option.isSome_iff_exists.mp named
  have called : schema.nodes.className? type = some (Name.camel name) := by
    rw [Nodes.className?, isType, Bool.or_true, if_pos rfl, named, Option.map_some]
  have own : schema.nodes.Alone type → ∀ kept, (Collection.ofList definitions).find? (Name.camel name) = some kept →
      after.Defines style type kept := by
    intro alone kept found
    rw [Collection.find?_ofList] at found
    have same := List.find?_some found
    exact type_alone loaded tenable gives isType alone (List.mem_of_find?_eq_some found)
      (called.trans (congrArg some (eq_of_beq same).symm))
  refine ⟨Name.camel name, ?_, Collection.find?_ofList definitions, own, fun top => ?_⟩
  · rcases typed with type | type
    all_goals simp only [className, declared, element, type, node, named, Option.getD_some]
  · obtain ⟨definition, listed, same, defines⟩ := type_defined loaded tenable gives top isType called
    refine ⟨definition, listed, same, defines, fun alone => ?_⟩
    have some : (definitions.find? (·.name == Name.camel name)).isSome :=
      List.find?_isSome.mpr ⟨definition, listed, beq_iff_eq.mpr same⟩
    obtain ⟨kept, found⟩ := Option.isSome_iff_exists.mp some
    rw [← Collection.find?_ofList] at found
    rw [found, (own alone kept found).unique defines]

end Schema

def Nodes.typeNames (nodes : Nodes) : List String :=
  (List.range nodes.size).filterMap fun id =>
    if (nodes.kindOf id).isType then (nodes.get id).name?.map Name.localPart else none

/-- Types have different names, and none is called like a built-in type. -/
structure Nodes.TypesApart (nodes : Nodes) : Prop where
  distinct : nodes.typeNames.Nodup
  plain : ∀ name ∈ nodes.typeNames, name ∉ Builtin.all.map Builtin.label

/-- Element `a` is of the type `A`, element `e` of the type `B`, and element `f` of a type with a name that
stands inside of an element of a built-in type. -/
def Document.shadowed : Document where
  elements := #[
    { name := "schema", children := #[1, 2, 3, 5, 6, 9] },
    { name := "element", attributes := [("name", "a"), ("type", "A")], parent := some 0 },
    { name := "element", attributes := [("name", "e"), ("type", "B")], parent := some 0 },
    { name := "element", attributes := [("name", "c"), ("type", "string")], children := #[4], parent := some 0 },
    { name := "complexType", attributes := [("name", "D")], parent := some 3 },
    { name := "element", attributes := [("name", "f"), ("type", "D")], parent := some 0 },
    { name := "simpleType", attributes := [("name", "A")], children := #[7], parent := some 0 },
    { name := "restriction", attributes := [("base", "string")], children := #[8], parent := some 6 },
    { name := "maxLength", attributes := [("value", "3")], parent := some 7 },
    { name := "complexType", attributes := [("name", "B")], parent := some 0 }]
  root := some 0

namespace Schema

def shadowed : Schema where
  nodes := #[
    { construct := .schema none
      children := [⟨.element, 1⟩, ⟨.element, 2⟩, ⟨.element, 3⟩, ⟨.element, 5⟩, ⟨.complexType, 8⟩, ⟨.simpleType, 6⟩] },
    { parent := some 0, construct := .element { name := some "a", type := some (.simple 6) } },
    { parent := some 0, construct := .element { name := some "e", type := some (.complex 8) } },
    { parent := some 0, construct := .element { name := some "c", type := some (.builtin .string) },
      children := [⟨.complexType, 4⟩] },
    { parent := some 3, construct := .complexType (some "D") false false },
    { parent := some 0, construct := .element { name := some "f", type := some (.complex 4) } },
    { parent := some 0, construct := .simpleType (some "A"), children := [⟨.restriction, 7⟩] },
    { parent := some 6, construct := .restriction (some (.builtin .string)) { numbers := [(.length .maximum, 3)] } },
    { parent := some 0, construct := .complexType (some "B") false false }]
  root := 0
  declarations := [("a", 1), ("e", 2), ("c", 3), ("f", 5)]

set_option maxRecDepth 8000 in
theorem shadowed_loaded : shadowed.Loaded :=
  ⟨{}, .shadowed, Array.replicate 10 none, by cbv⟩

theorem shadowed_alone : shadowed.nodes.Alone 8 := by
  have called : shadowed.nodes.className? 8 = some "B" := by cbv
  have others : ∀ id < 8, shadowed.nodes.className? id ≠ some "B" := by decide +kernel
  constructor
  · intro other same
    rw [called] at same
    rcases Nat.lt_trichotomy other 8 with before | here | behind
    · exact absurd same (others other before)
    · exact here
    · have absent : shadowed.nodes.get other = default := Nodes.get_outside behind
      have bare : shadowed.nodes.className? other = none := by
        unfold Nodes.className?
        split
        · rw [absent]
          rfl
        · rfl
      cases bare.symm.trans same
  · intro type
    rw [called]
    cases type <;> simp [Builtin.label]

set_option maxRecDepth 8000 in
theorem declared_definition_shadowed : shadowed.Loaded ∧ (∀ request ∈ [Request.tags], request.Inside shadowed) ∧
    shadowed.declaration? "e" = some 2 ∧ shadowed.className "e" = .ok "B" ∧
    (shadowed.nodes.get 2).construct = .element { name := some "e", type := some (.complex 8) } ∧
    shadowed.IsTop 8 ∧ shadowed.nodes.Alone 8 ∧ ∃ replies before definitions after,
      (shadowed.replies [.tags]).Gives shadowed.derivation replies before ∧
      (shadowed.definitions {}).Gives before definitions after ∧
        ∃ own ∈ definitions, own.name = "B" ∧ after.Defines {} 8 own ∧
            (Collection.ofList definitions).find? "B" = some own := by
  have inside : ∀ request ∈ [Request.tags], request.Inside shadowed := List.forall_mem_singleton.mpr trivial
  have declared : shadowed.declaration? "e" = some 2 := by cbv
  have called : shadowed.className "e" = .ok "B" := by cbv
  have top : shadowed.IsTop 8 := ⟨.complexType, by decide, by decide⟩
  have answers :
      ((shadowed.replies [.tags] >>= fun _ => shadowed.definitions {}).run shadowed.derivation).isSome = true := by
    cbv
  obtain ⟨⟨definitions, after⟩, outcome⟩ := Option.isSome_iff_exists.mp answers
  obtain ⟨replies, before, asked, gives⟩ := Derive.Gives.bind outcome
  obtain ⟨className, same, _, _, listed⟩ :=
    declared_definition shadowed_loaded inside asked gives declared rfl (Or.inr rfl)
  cases called.symm.trans same
  obtain ⟨own, among, named, defines, kept⟩ := listed top
  exact ⟨shadowed_loaded, inside, declared, called, rfl, top, shadowed_alone, replies, before, definitions,
    after, asked, gives, own, among, named, defines, kept shadowed_alone⟩

set_option maxRecDepth 8000 in
/-- The class of an element hides that of its type if both have one name, and a type whose builder stands for a built-in
type has no definition under its own. -/
theorem definition_shadowed : shadowed.Loaded ∧ shadowed.nodes.TypesApart ∧ ∃ definitions after,
    (shadowed.definitions {}).Gives shadowed.derivation definitions after ∧
    (shadowed.declaration? "a" = some 1 ∧
      (shadowed.nodes.get 1).construct = .element { name := some "a", type := some (.simple 6) } ∧
      shadowed.className "a" = .ok "A" ∧
      ¬∃ kept, (Collection.ofList definitions).find? "A" = some kept ∧ after.Defines {} 6 kept) ∧
    shadowed.declaration? "f" = some 5 ∧
    (shadowed.nodes.get 5).construct = .element { name := some "f", type := some (.complex 4) } ∧
      shadowed.className "f" = .ok "D" ∧ (Collection.ofList definitions).find? "D" = none := by
  have distinct : shadowed.nodes.TypesApart := ⟨by decide +kernel, by decide +kernel⟩
  have outcome : ((shadowed.definitions {}).run shadowed.derivation).map (fun outcome =>
      ((Collection.ofList outcome.1).find? "A", (Collection.ofList outcome.1).find? "D",
        (outcome.2.builder? 6).map fun builder =>
        (Rendering.ofBuilder? {} outcome.2.builders builder).map Rendering.definition)) =
      some (some { name := "A", superclass := some "A" }, none,
        some (some { name := "A", superclass := some "string", checks := [.length .maximum 3] })) := by cbv
  obtain ⟨⟨definitions, after⟩, gives, same⟩ := Option.map_eq_some_iff.mp outcome
  simp only [Prod.mk.injEq] at same
  obtain ⟨kept, none, own⟩ := same
  refine ⟨shadowed_loaded, distinct, definitions, after, gives, ⟨by cbv, rfl, by cbv, ?_⟩, by cbv, rfl, by cbv, none⟩
  rintro ⟨definition, found, builder, rendering, known, rendered, rfl⟩
  rw [known, Option.map_some, rendered, Option.map_some] at own
  rw [kept] at found
  have same := (Option.some.inj found).trans (Option.some.inj (Option.some.inj own))
  exact absurd (congrArg Definition.superclass same) (by decide)

end Schema
end SchemaClasses
