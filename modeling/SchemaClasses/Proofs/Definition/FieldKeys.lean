import SchemaClasses.Proofs.Definition.Validation
import SchemaClasses.Proofs.Derivation.Requests
import SchemaClasses.Proofs.Name
import SchemaClasses.Proofs.Schema.Resolution

/-! The names of fields. A class calls its fields after the declarations of elements, an instance after the tags
of its children. Both come to the same, so that what a class checks is where an instance has it. -/

namespace SchemaClasses

namespace Nodes

def OnTop (nodes : Nodes) (id : NodeId) : Prop :=
  ∃ parent, (nodes.get id).parent = some parent ∧ nodes.kindOf parent = .schema

def AttributeRefers (nodes : Nodes) (id referenced : NodeId) : Prop :=
  nodes.kindOf id = .attr ∧ nodes.Refers id referenced

/-- Elements on top refer to no other element, attributes do not refer to each other in a circle, and elements have
names with at most one namespace label. -/
structure Direct (nodes : Nodes) : Prop where
  elements : ∀ id decl, nodes.OnTop id → (nodes.get id).construct = .element decl → decl.ref = none
  attributes : ∀ id, ¬Relation.TransGen nodes.AttributeRefers id id
  names : ∀ id decl name, (nodes.get id).construct = .element decl → decl.name = some name → name.toList.count ':' ≤ 1

/-- Whether a node is as it should be where no attribute refers to another. -/
def isDirect (nodes : Nodes) (node : Node) : Bool :=
  match node.construct with
  | .element decl =>
    (decl.ref.isNone || node.parent.all fun parent => nodes.kindOf parent ≠ .schema) && decl.name.all fun name =>
      name.toList.count ':' ≤ 1
  | .attr decl => decl.ref.isNone
  | _ => true

theorem direct_of_all {nodes : Nodes} (all : ∀ id < nodes.size, nodes.isDirect (nodes.get id) = true) :
    nodes.Direct := by
  have each (id : NodeId) : nodes.isDirect (nodes.get id) = true := by
    rcases Nat.lt_or_ge id nodes.size with inside | outside
    · exact all id inside
    · rw [get_outside outside]
      rfl
  constructor
  · rintro id decl ⟨parent, above, schema⟩ construct
    have own := each id
    simp only [isDirect, construct, above, Option.all_some, schema, Bool.and_eq_true] at own
    simpa using own.1
  · intro id circle
    obtain ⟨next, ⟨kind, refers⟩, _⟩ := Relation.TransGen.head'_iff.mp circle
    have own := each id
    unfold Refers singleRef? at refers
    split at refers
    · next construct => simp [kindOf, Node.kind, construct, Construct.kind] at kind
    · next construct => simp [isDirect, construct] at own
    · cases refers
  · intro id decl name construct named
    have own := each id
    simp only [isDirect, construct, named, Option.all_some, Bool.and_eq_true, decide_eq_true_eq] at own
    exact own.2

/-- The name that an element goes by: its own or, if it refers to another, the name of that. -/
def elementName? (nodes : Nodes) (id : NodeId) : Option String :=
  match (nodes.get id).construct with
  | .element decl =>
    match decl.ref with
    | none => decl.name
    | some (.resolved referenced) => (nodes.get referenced).name?
    | some (.named _) => none
  | _ => none

variable {nodes : Nodes} {id : NodeId} {name : String}

theorem kind_of_element {decl : ElementDecl} (construct : (nodes.get id).construct = .element decl) :
    nodes.kindOf id = .element := by
  rw [kindOf, Node.kind, construct, Construct.kind]

theorem element_of_kind (kind : nodes.kindOf id = .element) : ∃ decl, (nodes.get id).construct = .element decl := by
  cases construct : (nodes.get id).construct with
  | element decl => exact ⟨decl, rfl⟩
  | _ => simp [kindOf, Node.kind, construct, Construct.kind] at kind

theorem elementName_cases (named : nodes.elementName? id = some name) :
    ∃ decl, (nodes.get id).construct = .element decl ∧
    (decl.ref = none ∧ decl.name = some name ∨
      ∃ referenced, decl.ref = some (.resolved referenced) ∧ (nodes.get referenced).name? = some name) := by
  unfold elementName? at named
  split at named
  · next decl construct =>
    refine ⟨decl, construct, ?_⟩
    split at named
    · next none => exact Or.inl ⟨none, named⟩
    · next referenced ref => exact Or.inr ⟨referenced, ref, named⟩
    · cases named
  · cases named

end Nodes

namespace Schema.Loaded
variable {schema : Schema} (loaded : schema.Loaded) (direct : schema.nodes.Direct)
  {id referenced other : NodeId} {name : String}
include loaded

theorem referenced_element {decl : ElementDecl} (construct : (schema.nodes.get id).construct = .element decl)
    (ref : decl.ref = some (.resolved referenced)) : ∃ own, (schema.nodes.get referenced).construct = .element own := by
  have use : (schema.nodes.get id).construct.nodeRef? = some (.resolved referenced) := by
    rw [construct, Construct.nodeRef?, ref]
  exact Nodes.element_of_kind ((loaded.formed.ref id referenced use).2.1.trans (Nodes.kind_of_element construct))

include direct

theorem referenced_declares {decl : ElementDecl} (construct : (schema.nodes.get id).construct = .element decl)
    (ref : decl.ref = some (.resolved referenced)) :
    ∃ own, (schema.nodes.get referenced).construct = .element own ∧ own.ref = none := by
  obtain ⟨own, found⟩ := loaded.referenced_element construct ref
  exact ⟨own, found, direct.elements referenced own (loaded.ref_top construct ref) found⟩

theorem elementName_colons (named : schema.nodes.elementName? id = some name) : name.toList.count ':' ≤ 1 := by
  obtain ⟨decl, construct, ⟨_, own⟩ | ⟨referenced, ref, called⟩⟩ := Nodes.elementName_cases named
  · exact direct.names id decl name construct own
  · obtain ⟨own, found⟩ := loaded.referenced_element construct ref
    rw [Node.name?, found, Construct.name?] at called
    exact direct.names referenced own name found called

theorem refers_once (kind : schema.nodes.kindOf id = .element) (refers : schema.nodes.Refers id referenced) :
    ¬schema.nodes.Refers referenced other := by
  obtain ⟨decl, construct⟩ := Nodes.element_of_kind kind
  have ref := refers.use
  rw [construct] at ref
  obtain ⟨own, found, none⟩ := loaded.referenced_declares direct construct ref
  intro further
  have ref := further.use
  rw [found, Construct.nodeRef?, none] at ref
  cases ref

omit direct in
theorem leads_attribute (kind : schema.nodes.kindOf id = .attr)
    (leads : Relation.TransGen schema.nodes.Refers id other) :
    Relation.TransGen schema.nodes.AttributeRefers id other ∧ schema.nodes.kindOf other = .attr := by
  have next {id referenced : NodeId} (kind : schema.nodes.kindOf id = .attr)
    (refers : schema.nodes.Refers id referenced) :
      schema.nodes.kindOf referenced = .attr :=
    (loaded.formed.ref id referenced refers.use).2.1.trans kind
  induction leads with
  | single refers => exact ⟨.single ⟨kind, refers⟩, next kind refers⟩
  | tail _ refers ih => exact ⟨ih.1.tail ⟨ih.2, refers⟩, next ih.2 refers⟩

/-- An element on top refers to nothing, so a chain of references ends with the first element. -/
theorem acyclic_of_direct : schema.nodes.Acyclic := by
  intro id circle
  obtain ⟨next, refers, leads⟩ := Relation.TransGen.head'_iff.mp circle
  rcases refers.kind with kind | kind
  · rcases leads.cases_head with rfl | ⟨other, step, _⟩
    · exact loaded.refers_once direct kind refers refers
    · exact loaded.refers_once direct kind refers step
  · exact direct.attributes id (loaded.leads_attribute kind circle).1

/-- The builder of an element has the name that the element goes by. For a single use of another element it is
the builder of that one, for repetitions it is named like the items. -/
theorem element_tag {stage : Stage} (settled : stage.Settled schema.nodes) {builder : BuilderId}
    (found : stage.memo id = some builder) (named : schema.nodes.elementName? id = some name) :
    (stage.builders.get builder).fieldTag = some name := by
  have tagged {id : NodeId} (found : stage.memo id = some builder) (kind : schema.nodes.kindOf id = .element)
      (alone : ∀ referenced, schema.nodes.plan id ≠ .share referenced) :
      (stage.builders.get builder).fieldTag = schema.nodes.title id :=
    settled.titled id builder ⟨loaded.formed.not_embedded_of_kind (by rw [kind]; rfl), alone⟩ found
  have declared {id : NodeId} {decl : ElementDecl} (found : stage.memo id = some builder)
      (construct : (schema.nodes.get id).construct = .element decl) (ref : decl.ref = none)
        (own : decl.name = some name) :
      (stage.builders.get builder).fieldTag = some name := by
    have stated : schema.nodes.stated? id = some name := by simp only [Nodes.stated?, construct, ref, own]
    have alone (referenced : NodeId) : schema.nodes.plan id ≠ .share referenced := by simp [Nodes.plan, construct, ref]
    rw [tagged found (Nodes.kind_of_element construct) alone, Nodes.title_of_stated stated]
  obtain ⟨decl, construct, ⟨ref, own⟩ | ⟨referenced, ref, called⟩⟩ := Nodes.elementName_cases named
  · exact declared found construct ref own
  · by_cases multiple : decl.occurs.isMultiple = true
    · have plan : schema.nodes.plan id = .build (fun _ =>
          []) none [.ask (.repeated (schema.nodes.get referenced).name?) referenced] := by
        simp only [Nodes.plan, construct, ref, multiple, if_true]
      rw [tagged found (Nodes.kind_of_element construct) (by simp [plan]), Nodes.title, plan, called]
      rfl
    · have plan : schema.nodes.plan id = .share referenced := by simp [Nodes.plan, construct, ref, multiple]
      obtain ⟨own, there, none⟩ := loaded.referenced_declares direct construct ref
      rw [Node.name?, there, Construct.name?] at called
      exact declared ((settled.shared id builder found).referred plan).found there none called

end Schema.Loaded

theorem Rendering.fieldValid_mem {style : Style} {builders : Builders} {owner field : BuilderId}
    {rendering : Rendering} {key : String} (rendered : ofBuilder? style builders owner = some rendering)
    (plain : rendering.definition.aliased = none) (listed : field ∈ (builders.get owner).fields)
    (named : builders.fieldName? field = some key) :
    .fieldValid key ∈ rendering.definition.checks := by
  rcases ofBuilder?_eq_some_iff.mp rendered with ⟨_, _, rfl⟩ | ⟨_, _, accessors, _, written, rfl⟩
  · cases plain
  · have named : key ∈ accessors.map Accessor.name :=
      accessors?_names written ▸ List.mem_filterMap.mpr ⟨field, listed, named⟩
    obtain ⟨accessor, accessed, rfl⟩ := List.mem_map.mp named
    exact List.mem_append_left _ (List.mem_map.mpr ⟨accessor, accessed, rfl⟩)

namespace Schema

/-- Whatever is asked of a schema, an element that has a builder by then is called like the field of its tag,
however it came by its name. A class that holds the builder checks that field, and so validates all that its
instances have under the tag. There are replies if builders alone are asked for, and otherwise if and only if
each request ends when its turn comes. -/
theorem field_keys {schema : Schema} (loaded : schema.Loaded) (direct : schema.nodes.Direct) {requests : List Request}
    (inside : ∀ request ∈ requests, request.Inside schema) (style : Style) :
    ((∀ request ∈ requests, request.Derives) →
      ∃ replies after, (schema.replies requests).Gives schema.derivation replies after) ∧
      ((∃ replies after, (schema.replies requests).Gives schema.derivation replies after) ↔
        schema.AllEnd requests schema.derivation) ∧
      ∀ replies after, (schema.replies requests).Gives schema.derivation replies after → ∀ id builder name,
        after.builder? id = some builder → schema.nodes.elementName? id = some name →
        after.builders.fieldName? builder = some (Name.field (Name.localPart name)) ∧
        ∀ owner rendering, Rendering.ofBuilder? style after.builders owner = some rendering →
          rendering.definition.aliased = none →
          builder ∈ (after.builders.get owner).fields →
            .fieldValid (Name.field (Name.localPart name)) ∈ rendering.definition.checks ∧
              ∀ collection : Collection, collection.find? rendering.definition.name = some rendering.definition →
                collection.Covers schema rendering.definition.name (Name.localPart name) := by
  have answered := replies_answered_iff loaded (loaded.acyclic_of_direct direct) inside tenable_start
  refine ⟨fun derives => answered.mpr (.of_derives derives), answered,
    fun replies after gives id builder name found named => ?_⟩
  obtain ⟨tenable, _⟩ := (replies_safe loaded inside).grows tenable_start gives
  have tag : (after.builders.get builder).fieldTag = some name := loaded.element_tag direct tenable.settled found named
  have key : after.builders.fieldName? builder = some (Name.field (Name.localPart name)) := by
    rw [Name.field_localPart (loaded.elementName_colons direct named), Builders.fieldName?, Builder.fieldName?, tag]
    rfl
  refine ⟨key, fun owner rendering rendered plain listed => ?_⟩
  have checked := Rendering.fieldValid_mem rendered plain listed key
  exact ⟨checked, fun collection held => Collection.covers_of_check held checked⟩

theorem field_keys_entwined : entwined.Loaded ∧ entwined.nodes.Direct ∧
    (∀ request ∈ [Request.classBuilders], request.Inside entwined) ∧
      ∃ replies after, (entwined.replies [.classBuilders]).Gives entwined.derivation replies after ∧
        ∀ id builder name, after.builder? id = some builder → entwined.nodes.elementName? id = some name →
          after.builders.fieldName? builder = some (Name.field (Name.localPart name)) ∧
          ∀ owner rendering, Rendering.ofBuilder? {} after.builders owner = some rendering →
            rendering.definition.aliased = none →
            builder ∈ (after.builders.get owner).fields →
              .fieldValid (Name.field (Name.localPart name)) ∈ rendering.definition.checks ∧
                ∀ collection : Collection, collection.find? rendering.definition.name = some rendering.definition →
                  collection.Covers entwined rendering.definition.name (Name.localPart name) := by
  have direct : entwined.nodes.Direct := Nodes.direct_of_all (by decide)
  have inside : ∀ request ∈ [Request.classBuilders], request.Inside entwined :=
    List.forall_mem_singleton.mpr trivial
  obtain ⟨answered, _, keys⟩ := field_keys entwined_loaded direct inside {}
  obtain ⟨replies, after, gives⟩ := answered (List.forall_mem_singleton.mpr trivial)
  exact ⟨entwined_loaded, direct, inside, replies, after, gives, keys replies after gives⟩

end Schema

/-- An element that states a built-in type has further content. -/
def Document.overlaid : Document where
  elements := #[
    { name := "schema", children := #[1] },
    { name := "element", attributes := [("name", "a"), ("type", "xs:string")], children := #[2], parent := some 0 },
    { name := "complexType", children := #[3], parent := some 1 },
    { name := "sequence", children := #[4], parent := some 2 },
    { name := "element", attributes := [("name", "b"), ("type", "xs:string")], parent := some 3 }]
  root := some 0

namespace Schema

def overlaid : Schema where
  nodes := #[
    { construct := .schema none, children := [⟨.element, 1⟩] },
    { parent := some 0, construct := .element { name := some "a", type := some (.builtin .string) },
      children := [⟨.complexType, 2⟩] },
    { parent := some 1, construct := .complexType none false false, children := [⟨.sequence, 3⟩] },
    { parent := some 2, construct := .sequence {}, children := [⟨.element, 4⟩] },
    { parent := some 3, construct := .element { name := some "b", type := some (.builtin .string) } }]
  root := 0
  declarations := [("a", 1), ("b", 4)]

set_option maxRecDepth 8000 in
theorem overlaid_loaded : overlaid.Loaded :=
  ⟨{}, .overlaid, Array.replicate 5 none, by cbv⟩

/-- What an element of a built-in type holds besides is not checked, as its definition is another name for the type. -/
theorem field_unchecked : overlaid.Loaded ∧ overlaid.nodes.Direct ∧ ∃ definitions after rendering,
    (overlaid.definitions {}).Gives overlaid.derivation definitions after ∧ after.builder? 4 = some 1 ∧
      overlaid.nodes.elementName? 4 = some "b" ∧ Rendering.ofBuilder? {} after.builders 0 = some rendering ∧
        rendering.definition ∈ definitions ∧ 1 ∈ (after.builders.get 0).fields ∧
          .fieldValid (Name.field (Name.localPart "b")) ∉ rendering.definition.checks := by
  have direct : overlaid.nodes.Direct := Nodes.direct_of_all (by decide)
  have outcome : ((overlaid.definitions {}).run overlaid.derivation).map (fun outcome =>
      (outcome.1, outcome.2.builder? 4, (Rendering.ofBuilder? {} outcome.2.builders 0).map Rendering.definition,
        (outcome.2.builders.get 0).fields)) =
          some (List.replicate 2 (Rendering.ofBuiltin {} .string).definition, some 1,
              some (Rendering.ofBuiltin {} .string).definition, [1]) := by cbv
  obtain ⟨⟨definitions, after⟩, gives, same⟩ := Option.map_eq_some_iff.mp outcome
  simp only [Prod.mk.injEq] at same
  obtain ⟨rfl, found, rendered, fields⟩ := same
  obtain ⟨rendering, rendered, definition⟩ := Option.map_eq_some_iff.mp rendered
  refine ⟨overlaid_loaded, direct, _, after, rendering, gives, found, rfl, rendered, ?_, ?_, ?_⟩
  · rw [definition]
    exact List.mem_cons_self
  · rw [fields]
    exact List.mem_cons_self
  · rw [definition]
    exact List.not_mem_nil

end Schema
end SchemaClasses
