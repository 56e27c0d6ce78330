import SchemaClasses.Proofs.Derivation.Content

/-! The fields of a class. They are the nodes that its type stands for, in the order of the schema, and they
can be read off the schema without deriving anything. -/

namespace SchemaClasses

namespace Nodes
variable (nodes : Nodes)

def modelFields (node : Node) : List NodeId :=
  ((node.child? .group).toList ++ (node.child? .choice).toList ++ (node.child? .sequence).toList).flatMap
    (nodes.members [])

def attributeFields (node : Node) : List NodeId :=
  nodes.attributes node ++ (node.childrenOf .attrGroup).flatMap (nodes.members [])

def derivedFields (id : NodeId) : List NodeId :=
  let node := nodes.get id
  nodes.modelFields node ++ nodes.attributeFields node
    ++ if node.kind = .restriction then (node.child? .simpleType).toList else []

def contentFields (id : NodeId) : List NodeId :=
  let node := nodes.get id
  ((node.child? .restriction).toList ++ (node.child? .extension).toList).flatMap nodes.derivedFields

/-- The nodes that are the fields of a complex type. -/
def typeFields (id : NodeId) : List NodeId :=
  let node := nodes.get id
  ((node.child? .simpleContent).toList ++ (node.child? .complexContent).toList).flatMap nodes.contentFields
    ++ nodes.modelFields node ++ (node.child? .all).toList.flatMap (nodes.members []) ++ nodes.attributeFields node

/-- No element has two types inside of it. -/
def OneInlineType : Prop :=
  ∀ id, nodes.kindOf id = .element →
    (nodes.get id).childrenOf .simpleType = [] ∨ (nodes.get id).childrenOf .complexType = []

end Nodes

theorem Written.split {nodes : Nodes} {numbering : Numbering} {id : NodeId} {first rest : List Entry}
    {before after : Builder} {rules : List Rule}
    (written : Written nodes numbering id (first ++ rest) before after rules) :
    ∃ middle own more, Written nodes numbering id first before middle own ∧
      Written nodes numbering id rest middle after more := by
  induction first generalizing before rules with
  | nil => exact ⟨before, [], rules, .done, written⟩
  | cons entry first ih =>
    cases written with
    | mark written =>
      obtain ⟨middle, own, more, left, right⟩ := ih written
      exact ⟨middle, _, more, .mark left, right⟩
    | rules written =>
      obtain ⟨middle, own, more, left, right⟩ := ih written
      exact ⟨middle, _, more, .rules left, right⟩
    | notice written =>
      obtain ⟨middle, own, more, left, right⟩ := ih written
      exact ⟨middle, _, more, .notice left, right⟩
    | plain found written =>
      obtain ⟨middle, own, more, left, right⟩ := ih written
      exact ⟨middle, _, more, .plain found left, right⟩
    | ask found written =>
      obtain ⟨middle, own, more, left, right⟩ := ih written
      exact ⟨middle, _, more, .ask found left, right⟩
    | append found written =>
      obtain ⟨middle, own, more, left, right⟩ := ih written
      exact ⟨middle, _, more, .append found left, right⟩
    | embed inner written =>
      obtain ⟨middle, own, more, left, right⟩ := ih written
      exact ⟨middle, _, more, .embed inner left, right⟩

/-- Entries append the builders of certain nodes to the fields. -/
def Adds (nodes : Nodes) (numbering : Numbering) (id : NodeId) (entries : List Entry) (ids : List NodeId) : Prop :=
  ∀ before after rules, Written nodes numbering id entries before after rules →
    after.fields.map some = before.fields.map some ++ ids.map numbering.memo

namespace Adds
variable {nodes : Nodes} {numbering : Numbering} {id : NodeId}

theorem append {first rest : List Entry} {ids more : List NodeId} (adds : Adds nodes numbering id first ids)
    (remaining : Adds nodes numbering id rest more) : Adds nodes numbering id (first ++ rest) (ids ++ more) := by
  intro before after rules written
  obtain ⟨middle, _, _, left, right⟩ := written.split
  rw [remaining middle after _ right, adds before middle _ left, List.map_append, List.append_assoc]

theorem nil : Adds nodes numbering id [] [] := by
  intro before after rules written
  cases written
  simp

theorem each {α : Type} {entry : α → Entry} {fields : α → List NodeId} {items : List α}
    (adds : ∀ item ∈ items, Adds nodes numbering id [entry item] (fields item)) :
    Adds nodes numbering id (items.map entry) (items.flatMap fields) := by
  induction items with
  | nil => exact .nil
  | cons item items ih =>
    rw [List.map_cons, List.flatMap_cons]
    exact (adds item List.mem_cons_self).append (ih fun other member => adds other (List.mem_cons_of_mem _ member))

theorem nothing {α : Type} {entry : α → Entry} (adds : ∀ item, Adds nodes numbering id [entry item] [])
    (items : List α) :
    Adds nodes numbering id (items.map entry) [] := by
  have each : Adds nodes numbering id (items.map entry) (items.flatMap fun _ => []) := .each fun item _ => adds item
  rwa [List.flatMap_eq_nil_iff.mpr fun _ _ => rfl] at each

theorem mark (mark : Mark) : Adds nodes numbering id [.mark mark] [] := by
  intro before after rules written
  cases written with
  | mark written =>
    cases written
    cases mark <;> simp [Mark.apply]

theorem rules (pushed : List Rule) : Adds nodes numbering id [.rules pushed] [] := by
  intro before after rules written
  cases written with
  | rules written =>
    cases written
    simp

theorem base (asked : NodeId) : Adds nodes numbering id [.ask .base asked] [] := by
  intro before after rules written
  cases written with
  | ask found written =>
    cases written
    simp [Role.link]

theorem field (asked : NodeId) : Adds nodes numbering id [.ask .field asked] [asked] := by
  intro before after rules written
  cases written with
  | ask found written =>
    cases written
    simp [Role.link, found]

theorem group (group : NodeId) : Adds nodes numbering id [.append group] (nodes.members [] group) := by
  intro before after rules written
  cases written with
  | append found written =>
    cases written
    rw [List.map_append, found]

theorem embed {inner : NodeId} {fields : List NodeId} (adds : Adds nodes numbering inner (nodes.planned inner) fields) :
    Adds nodes numbering id [.embed inner] fields := by
  intro before after rules written
  cases written with
  | embed own written =>
    cases written
    exact adds _ _ _ own

theorem type (name : Option String) (type : TypeRef) : Adds nodes numbering id [type.declared name] [] := by
  cases type with
  | named typeName =>
    intro before after rules written
    cases written with
    | notice written =>
      cases written
      simp
  | builtin type => exact .mark _
  | simple type | complex type => exact .base type

theorem extended (base : TypeRef) : Adds nodes numbering id [base.extended] [] := by
  cases base with
  | named typeName =>
    intro before after rules written
    cases written with
    | notice written =>
      cases written
      simp
  | builtin type =>
    intro before after rules written
    cases written with
    | plain found written =>
      cases written
      simp [Role.link]
  | simple type | complex type => exact .base type

theorem model (node : Node) : Adds nodes numbering id node.modelEntries (nodes.modelFields node) :=
  .each fun group _ => .group group

theorem attributes (node : Node) :
    Adds nodes numbering id (nodes.attributeEntries node) (nodes.attributeFields node) := by
  have own : Adds nodes numbering id ((nodes.attributes node).map (.ask .field))
    ((nodes.attributes node).flatMap fun id => [id]) :=
    .each fun id _ => .field id
  rw [List.flatMap_singleton'] at own
  exact own.append (.each fun group _ => .group group)

end Adds

section Kinds
variable {nodes : Nodes} (numbering : Numbering) {id : NodeId}

theorem Adds.derived (kind : nodes.kindOf id = .restriction ∨ nodes.kindOf id = .extension) :
    Adds nodes numbering id (nodes.planned id) (nodes.derivedFields id) := by
  simp only [Nodes.kindOf, Node.kind] at kind
  cases construct : (nodes.get id).construct with
  | restriction base facets =>
    have based : Adds nodes numbering id (base.toList.map TypeRef.extended) [] := .nothing .extended _
    have inner : Adds nodes numbering id (((nodes.get id).child? .simpleType).toList.map (.ask .field))
        (((nodes.get id).child? .simpleType).toList.flatMap fun id => [id]) := .each fun id _ => .field id
    rw [List.flatMap_singleton'] at inner
    have whole := (((based.append (.model (nodes.get id))).append (.attributes (nodes.get id))).append inner).append
      (.rules facets.rules)
    have planned : nodes.planned id = nodes.entries id := by simp [Nodes.planned, Nodes.plan, construct]
    rw [planned]
    simpa [Nodes.entries, Nodes.derivedFields, construct, Node.kind, Construct.kind] using whole
  | extension base =>
    have based : Adds nodes numbering id (base.toList.map TypeRef.extended) [] := .nothing .extended _
    have whole := (based.append (.model (nodes.get id))).append (.attributes (nodes.get id))
    have planned : nodes.planned id = nodes.entries id := by simp [Nodes.planned, Nodes.plan, construct]
    rw [planned]
    simpa [Nodes.entries, Nodes.derivedFields, construct, Node.kind, Construct.kind] using whole
  | _ => simp [construct, Construct.kind] at kind

section Formed
variable (formed : nodes.Formed)
include formed

theorem Adds.content (kind : nodes.kindOf id = .simpleContent ∨ nodes.kindOf id = .complexContent) :
    Adds nodes numbering id (nodes.planned id) (nodes.contentFields id) := by
  have planned : nodes.planned id =
      (((nodes.get id).child? .restriction).toList ++ ((nodes.get id).child? .extension).toList).map .embed := by
    simp only [Nodes.kindOf, Node.kind] at kind
    cases construct : (nodes.get id).construct with
    | simpleContent | complexContent => simp [Nodes.planned, Nodes.plan, Nodes.entries, construct]
    | _ => simp [construct, Construct.kind] at kind
  rw [planned]
  refine .each fun inner member => .embed (.derived numbering ?_)
  rcases List.mem_append.mp member with found | found
  · exact Or.inl (formed.child_kind (Nodes.mem_childrenOf_of_child? (Option.mem_toList.mp found)))
  · exact Or.inr (formed.child_kind (Nodes.mem_childrenOf_of_child? (Option.mem_toList.mp found)))

theorem Adds.complexType (kind : nodes.kindOf id = .complexType) :
    Adds nodes numbering id (nodes.planned id) (nodes.typeFields id) := by
  simp only [Nodes.kindOf, Node.kind] at kind
  cases construct : (nodes.get id).construct with
  | complexType name mixed isAbstract =>
    have named : Adds nodes numbering id (name.toList.map fun name => .mark (.className name)) [] :=
      .nothing (fun _ => .mark _) _
    have contents : Adds nodes numbering id
        ((((nodes.get id).child? .simpleContent).toList ++ ((nodes.get id).child? .complexContent).toList).map .embed)
        ((((nodes.get id).child? .simpleContent).toList ++ ((nodes.get id).child? .complexContent).toList).flatMap
          nodes.contentFields) := by
      refine .each fun inner member => .embed (.content numbering formed ?_)
      rcases List.mem_append.mp member with found | found
      · exact Or.inl (formed.child_kind (Nodes.mem_childrenOf_of_child? (Option.mem_toList.mp found)))
      · exact Or.inr (formed.child_kind (Nodes.mem_childrenOf_of_child? (Option.mem_toList.mp found)))
    have every : Adds nodes numbering id (((nodes.get id).child? .all).toList.map .append)
        (((nodes.get id).child? .all).toList.flatMap (nodes.members [])) := .each fun group _ => .group group
    have whole := (((named.append contents).append (.model (nodes.get id))).append every).append
      (.attributes (nodes.get id))
    have planned : nodes.planned id = nodes.entries id := by simp [Nodes.planned, Nodes.plan, construct]
    rw [planned]
    simpa only [Nodes.entries, Nodes.typeFields, construct, List.nil_append] using whole
  | _ => simp [construct, Construct.kind] at kind

theorem Adds.element (single : nodes.OneInlineType) {type : NodeId} (embeds : nodes.Embeds id type)
    (kind : nodes.kindOf type = .complexType) : Adds nodes numbering id (nodes.planned id) (nodes.typeFields type) := by
  obtain ⟨_, inner, _, only, _, found⟩ := embeds.child?
  have member := Nodes.mem_childrenOf_of_child? found
  have same : inner = .complexType := (formed.child_kind member).symm.trans kind
  have element := only same
  rw [same] at found member
  have other : (nodes.get id).child? .simpleType = none := by
    have absent : (nodes.get id).childrenOf .simpleType = [] :=
      (single id element).resolve_right (List.ne_nil_of_mem member)
    rw [Node.child?, absent]
    rfl
  have planned : nodes.planned id = nodes.entries id := by
    rcases nodes.planned_cases id with same | same | ⟨_, same⟩ | ⟨_, _, same, _⟩
    · exact same
    all_goals
      rw [Nodes.Embeds, same] at embeds
      simp at embeds
  simp only [Nodes.kindOf, Node.kind] at element
  cases construct : (nodes.get id).construct with
  | element decl =>
    have typed : Adds nodes numbering id (decl.type.toList.map (TypeRef.declared decl.name)) [] := .nothing (.type _) _
    have whole := ((Adds.mark (.declared decl.name)).append typed).append (.embed (.complexType numbering formed kind))
    rw [planned]
    simpa [Nodes.entries, construct, found, other] using whole
  | _ => simp [construct, Construct.kind] at element

end Formed

end Kinds

namespace Derived
variable {nodes : Nodes} {stage : Stage} {ledger : List Origin} (formed : nodes.Formed) (top : nodes.TypesOnTop)
include formed top

/-- The builder of a complex type holds what the type says, also if it is the builder of an element. -/
private theorem writes_type (derived : Derived nodes stage ledger) (single : nodes.OneInlineType) {type : NodeId}
    (kind : nodes.kindOf type = .complexType) {builder : BuilderId} (found : stage.memo type = some builder) :
    ∃ id bag rules, Written nodes ⟨stage.memo, ledger⟩ id (nodes.planned id) { bag }
    (stage.builders.get builder) rules ∧
      Adds nodes ⟨stage.memo, ledger⟩ id (nodes.planned id) (nodes.typeFields type) := by
  have stands := derived.stands formed top
  obtain ⟨origin, home, place⟩ := stands.home type builder found
  have inside : builder < stage.size := stands.length ▸ (List.getElem?_eq_some_iff.mp place).1
  have described := derived.describes formed top .refl inside origin place
  have own : ∃ notices, nodes.plan type = .build notices none (nodes.planned type) := by
    have kind : (nodes.get type).construct.kind = .complexType := kind
    cases construct : (nodes.get type).construct with
    | complexType => exact ⟨nodes.derivationNotices type, by simp only [Nodes.planned, Nodes.plan, construct]⟩
    | _ => simp [construct, Construct.kind] at kind
  obtain ⟨_, own⟩ := own
  cases home with
  | own =>
    obtain ⟨bag, written⟩ := described.own_written own
    exact ⟨type, bag, _, written, .complexType _ formed kind⟩
  | shared plan =>
    rw [own] at plan
    cases plan
  | @inside _ outer _ _ _ embeds plan home =>
    have element : ¬nodes.Embedded outer := by
      obtain ⟨_, inner, _, only, _, found⟩ := embeds.child?
      have same := (formed.child_kind (Nodes.mem_childrenOf_of_child? found)).symm.trans kind
      exact formed.not_embedded_of_kind (by rw [only same]; rfl)
    cases home with
    | own =>
      obtain ⟨bag, written⟩ := described.own_written plan
      exact ⟨outer, bag, _, written, .element _ formed single embeds kind⟩
    | shared share =>
      rw [plan] at share
      cases share
    | inside embeds | item embeds => exact absurd ⟨_, embeds⟩ element
  | @item _ outer _ _ _ embeds =>
    obtain ⟨bag, written⟩ := described.item_written
    exact ⟨outer, bag, _, written, .element _ formed single embeds kind⟩

end Derived

/-- After calls in any order, the fields of a complex type that has a builder are the nodes that its
declaration lists, from left to right. -/
theorem Schema.type_fields_exact {schema : Schema} (loaded : schema.Loaded) (top : schema.nodes.TypesOnTop)
    (single : schema.nodes.OneInlineType) (acyclic : schema.nodes.Acyclic) {calls : List Schema.Call}
    (allowed : ∀ call ∈ calls, call.Allowed schema) :
    ∃ final, schema.After calls final ∧ ∀ type builder, schema.nodes.kindOf type = .complexType →
      final.builder? type = some builder →
        (final.builders.get builder).fields.map some = (schema.nodes.typeFields type).map final.builder? := by
  obtain ⟨final, answered⟩ := Schema.after_total loaded acyclic allowed
  refine ⟨final, answered, fun type builder kind found => ?_⟩
  obtain ⟨ledger, derived⟩ := (answered.reached loaded allowed).derived
  obtain ⟨_, _, _, written, adds⟩ := derived.writes_type loaded.formed top single kind found
  exact adds _ _ _ written

namespace Schema

theorem entwined_oneInlineType : entwined.nodes.OneInlineType := fun id _ =>
  Or.inl (@entwined_nodes (fun node => node.childrenOf .simpleType = []) (by decide) rfl id)

set_option maxRecDepth 8000 in
/-- The type inside of the element `a` has the two members of the group as fields, in the builder of the element. -/
theorem type_fields_entwined : entwined.Loaded ∧ entwined.nodes.TypesOnTop ∧ entwined.nodes.OneInlineType ∧
    entwined.nodes.Acyclic ∧ (∀ call ∈ [Call.builder 4, .tags, .classBuilders], call.Allowed entwined) ∧
      ∃ final, entwined.After [.builder 4, .tags, .classBuilders] final ∧ entwined.nodes.kindOf 5 = .complexType ∧
        final.builder? 5 = some 0 ∧ (final.builders.get 0).fields = [1, 2] ∧
          (final.builders.get 0).fields.map some = [9, 10].map final.builder? := by
  obtain ⟨final, answered, exact⟩ :=
    type_fields_exact entwined_loaded entwined_top entwined_oneInlineType entwined_acyclic entwined_allowed
  have outcome : ((entwined.answerAll [.builder 4, .tags, .classBuilders]).run entwined.derivation).map (fun outcome =>
      (outcome.2.builder? 5, (outcome.2.builders.get 0).fields)) = some (some 0, [1, 2]) := by cbv
  obtain ⟨⟨_, _⟩, ran, same⟩ := Option.map_eq_some_iff.mp outcome
  cases Option.some.inj (answered.symm.trans ran)
  obtain ⟨found, fields⟩ := Prod.mk.inj same
  have stated : entwined.nodes.typeFields 5 = [9, 10] := by cbv
  exact ⟨entwined_loaded, entwined_top, entwined_oneInlineType, entwined_acyclic, entwined_allowed, final,
    answered, rfl, found, fields, stated ▸ exact 5 0 rfl found⟩

end Schema

end SchemaClasses
