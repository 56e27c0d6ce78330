import SchemaClasses.Proofs.Derivation.Plan
import SchemaClasses.Proofs.Schema.Formed

/-! What plans lead to. Whatever a plan asks for is a node of the schema, and a node that fills the
builder of another is a child of it. Where types with a name stand on top, no plan asks for such a node. -/

namespace SchemaClasses.Nodes

/-- A node lets another fill its builder. -/
def Embeds (nodes : Nodes) (id inner : NodeId) : Prop :=
  .embed inner ∈ nodes.planned id

def Embedded (nodes : Nodes) (inner : NodeId) : Prop :=
  ∃ id, nodes.Embeds id inner

variable {nodes : Nodes} {id other : NodeId}

theorem planned_of_plan {notices : BuilderId → List Notice} {wrapped : Option (Option String)} {entries : List Entry}
    (plan : nodes.plan id = .build notices wrapped entries) : nodes.planned id = entries := by
  simp [planned, plan]

/-- Most nodes are filled with all of their entries; only the uses of other elements are not. -/
theorem planned_cases (nodes : Nodes) (id : NodeId) :
    nodes.planned id = nodes.entries id ∨ nodes.planned id = [] ∨ (∃ name, nodes.planned id = [.mark (.tag name)]) ∨
      ∃ name referenced, nodes.planned id = [.ask (.repeated name) referenced] ∧ nodes.kindOf id = .element ∧
        (nodes.get id).construct.nodeRef? = some (.resolved referenced) := by
  unfold planned plan
  cases construct : (nodes.get id).construct with
  | element decl =>
    rcases reference : decl.ref with _ | (name | referenced)
    · exact Or.inl (by simp [reference])
    · exact Or.inr (Or.inr (Or.inl ⟨name, by simp [reference]⟩))
    · by_cases repeated : decl.occurs.isMultiple = true
      · refine Or.inr (Or.inr (Or.inr ⟨(nodes.get referenced).name?,
          referenced, by simp [reference, repeated], ?_, ?_⟩))
        · simp [kindOf, Node.kind, construct, Construct.kind]
        · simp [Construct.nodeRef?, reference]
      · exact Or.inr (Or.inl (by simp [reference, repeated]))
  | attr decl =>
    obtain ⟨name, type, ref, usage⟩ := decl
    rcases ref with _ | (_ | _)
    · exact Or.inl rfl
    · exact Or.inl rfl
    · exact Or.inr (Or.inl rfl)
  | _ => exact Or.inl rfl

theorem mem_planned {entry : Entry} (listed : entry ∈ nodes.planned id) :
    entry ∈ nodes.entries id ∨ (∃ name, entry = .mark (.tag name)) ∨
      ∃ name referenced, entry = .ask (.repeated name) referenced ∧ nodes.kindOf id = .element ∧
        (nodes.get id).construct.nodeRef? = some (.resolved referenced) := by
  rcases nodes.planned_cases id with same | same | ⟨name, same⟩ | ⟨name, referenced, same, use⟩
  · exact Or.inl (same ▸ listed)
  · rw [same] at listed
    cases listed
  · exact Or.inr (Or.inl ⟨name, by simpa [same] using listed⟩)
  · exact Or.inr (Or.inr ⟨name, referenced, by simpa [same] using listed, use⟩)

private theorem declared_ne_embed {name : Option String} {type : Option TypeRef} :
    .embed other ∉ type.toList.map (TypeRef.declared name) := by
  rcases type with _ | (_ | _ | _ | _) <;> simp [TypeRef.declared]

private theorem extended_ne_embed {base : Option TypeRef} : .embed other ∉ base.toList.map TypeRef.extended := by
  rcases base with _ | (_ | _ | _ | _) <;> simp [TypeRef.extended]

private theorem declared_ask {name : Option String} {type : Option TypeRef} {role : Role}
    (asked : .ask role other ∈ type.toList.map (TypeRef.declared name)) :
    .simple other ∈ type.toList ∨ .complex other ∈ type.toList := by
  rcases type with _ | (_ | _ | _ | _) <;> simp_all [TypeRef.declared]

private theorem extended_ask {base : Option TypeRef} {role : Role}
    (asked : .ask role other ∈ base.toList.map TypeRef.extended) :
    .simple other ∈ base.toList ∨ .complex other ∈ base.toList := by
  rcases base with _ | (_ | _ | _ | _) <;> simp_all [TypeRef.extended]

private theorem item_ask {node : Node} {itemType : Option TypeRef} {role : Role}
    (asked : .ask role other ∈ node.itemEntries itemType) :
    (.simple other ∈ itemType.toList ∨ .complex other ∈ itemType.toList) ∨ other ∈ node.childrenOf .simpleType := by
  cases itemType with
  | some type => cases type <;> simp_all [Node.itemEntries]
  | none =>
    cases child : node.child? .simpleType with
    | none => simp [Node.itemEntries, child] at asked
    | some inner =>
      simp only [Node.itemEntries, child, List.mem_singleton, Entry.ask.injEq] at asked
      exact Or.inr (asked.2 ▸ mem_childrenOf_of_child? child)

private theorem item_ne_embed {node : Node} {itemType : Option TypeRef} : .embed other ∉ node.itemEntries itemType := by
  cases itemType with
  | some type => cases type <;> simp [Node.itemEntries]
  | none => cases child : node.child? .simpleType <;> simp [Node.itemEntries, child]

theorem Embeds.child? {inner : NodeId} (embeds : nodes.Embeds id inner) :
    (nodes.kindOf id).isOuter ∧ ∃ kind, kind.isInner ∧ (kind = .complexType → nodes.kindOf id = .element) ∧
      (kind.isType → (nodes.kindOf id).isDeclaration) ∧ (nodes.get id).child? kind = some inner := by
  have listed : .embed inner ∈ nodes.entries id := by
    rcases mem_planned embeds with listed | ⟨_, other⟩ | ⟨_, _, other, _⟩
    · exact listed
    · cases other
    · cases other
  have declared {name : Option String} {type : Option TypeRef} {a} (found : type = some a)
      (embed : TypeRef.declared name a = .embed inner) : False :=
    declared_ne_embed (List.mem_map.mpr ⟨a, Option.mem_toList.mpr found, embed⟩)
  have extended {base : Option TypeRef} {a} (found : base = some a) (embed : a.extended = .embed inner) : False :=
    extended_ne_embed (List.mem_map.mpr ⟨a, Option.mem_toList.mpr found, embed⟩)
  unfold entries at listed
  cases construct : (nodes.get id).construct <;>
    simp only [construct, List.cons_append, List.mem_cons, List.mem_append, List.mem_map, Option.mem_toList,
      Entry.embed.injEq, Node.modelEntries, attributeEntries, reduceCtorEq, and_false, exists_false, false_or,
      or_false, exists_eq_right, List.not_mem_nil] at listed <;>
    simp only [kindOf, Node.kind, construct, Construct.kind, Kind.isOuter, Kind.isDeclaration, true_and]
  case element =>
    rcases listed with ⟨_, found, embed⟩ | found | found
    · exact (declared found embed).elim
    · exact ⟨_, rfl, by simp, by simp, found⟩
    · exact ⟨_, rfl, by simp, by simp, found⟩
  case attr =>
    rcases listed with ⟨_, found, embed⟩ | found
    · exact (declared found embed).elim
    · exact ⟨_, rfl, by simp, by simp, found⟩
  case complexType | simpleContent | complexContent =>
    rcases listed with found | found
    · exact ⟨_, rfl, by simp, by simp [Kind.isType], found⟩
    · exact ⟨_, rfl, by simp, by simp [Kind.isType], found⟩
  case simpleType =>
    rcases listed with (found | found) | embed
    · exact ⟨_, rfl, by simp, by simp [Kind.isType], found⟩
    · exact ⟨_, rfl, by simp, by simp [Kind.isType], found⟩
    · split at embed <;> simp at embed
  case restriction | extension =>
    obtain ⟨_, found, embed⟩ := listed
    exact (extended found embed).elim
  case list => exact (item_ne_embed listed).elim

theorem Embeds.child {inner : NodeId} (embeds : nodes.Embeds id inner) :
    (nodes.kindOf id).isOuter ∧ ∃ kind, kind.isInner ∧ inner ∈ (nodes.get id).childrenOf kind := by
  obtain ⟨outer, kind, isInner, _, _, found⟩ := embeds.child?
  exact ⟨outer, kind, isInner, mem_childrenOf_of_child? found⟩

/-- A plan asks for the types that are named, the attributes, an item or element type, or another
element. -/
theorem ask_cases {role : Role} (asked : .ask role other ∈ nodes.planned id) :
    (.simple other ∈ (nodes.get id).construct.typeRefs ∨ .complex other ∈ (nodes.get id).construct.typeRefs) ∨
    other ∈ (nodes.get id).childrenOf .attr ∨
    (¬(nodes.kindOf id).isOuter ∧ other ∈ (nodes.get id).childrenOf .simpleType) ∨
    nodes.kindOf id = .element ∧ (nodes.get id).construct.nodeRef? = some (.resolved other) := by
  rcases mem_planned asked with listed | ⟨_, other⟩ | ⟨_, _, same, use⟩
  · have declared {name : Option String} {type : Option TypeRef} {a} (found : type = some a)
        (ask : TypeRef.declared name a = .ask role other) : .simple other ∈ type.toList ∨
          .complex other ∈ type.toList :=
      declared_ask (List.mem_map.mpr ⟨a, Option.mem_toList.mpr found, ask⟩)
    have extended {base : Option TypeRef} {a} (found : base = some a) (ask : a.extended = .ask role other) :
        .simple other ∈ base.toList ∨ .complex other ∈ base.toList :=
      extended_ask (List.mem_map.mpr ⟨a, Option.mem_toList.mpr found, ask⟩)
    unfold entries at listed
    cases construct : (nodes.get id).construct <;>
      simp only [construct, List.cons_append, List.mem_cons, List.mem_append, List.mem_map, Option.mem_toList,
        Entry.ask.injEq, Node.modelEntries, attributeEntries, attributes, List.mem_filter, reduceCtorEq, and_false,
        exists_false, false_or, or_false, List.not_mem_nil] at listed <;>
      simp only [kindOf, Node.kind, construct, Construct.kind, Construct.typeRefs, Construct.nodeRef?, Kind.isOuter]
    case element | attr =>
      obtain ⟨_, found, ask⟩ := listed
      exact Or.inl (declared found ask)
    case complexType =>
      obtain ⟨_, ⟨member, _⟩, _, rfl⟩ := listed
      exact Or.inr (Or.inl member)
    case simpleType => split at listed <;> simp at listed
    case restriction =>
      rcases listed with (⟨_, found, ask⟩ | ⟨_, ⟨member, _⟩, _, rfl⟩) | ⟨_, found, _, rfl⟩
      · exact Or.inl (extended found ask)
      · exact Or.inr (Or.inl member)
      · exact Or.inr (Or.inr (Or.inl ⟨by simp, mem_childrenOf_of_child? found⟩))
    case extension =>
      rcases listed with ⟨_, found, ask⟩ | ⟨_, ⟨member, _⟩, _, rfl⟩
      · exact Or.inl (extended found ask)
      · exact Or.inr (Or.inl member)
    case list =>
      rcases item_ask listed with named | member
      · exact Or.inl named
      · exact Or.inr (Or.inr (Or.inl ⟨by simp, member⟩))
  · cases other
  · cases same
    exact Or.inr (Or.inr (Or.inr use))

private theorem declared_mark {name : Option String} {type : Option TypeRef} {mark : Mark}
    (listed : .mark mark ∈ type.toList.map (TypeRef.declared name)) : ∃ type, mark = .builtin type := by
  rcases type with _ | (_ | _ | _ | _) <;> simp_all [TypeRef.declared]

private theorem extended_ne_mark {base : Option TypeRef} {mark : Mark} :
    .mark mark ∉ base.toList.map TypeRef.extended := by
  rcases base with _ | (_ | _ | _ | _) <;> simp [TypeRef.extended]

private theorem item_mark {node : Node} {itemType : Option TypeRef} {mark : Mark}
    (listed : .mark mark ∈ node.itemEntries itemType) :
    mark = .list := by
  cases itemType with
  | some type => cases type <;> simp_all [Node.itemEntries]
  | none => cases child : node.child? .simpleType <;> simp_all [Node.itemEntries]

/-- An element or an attribute states its name and its built-in type, a type states its name, and what is inside of a
type may make it a list. -/
theorem mark_cases {mark : Mark} (listed : .mark mark ∈ nodes.entries id) :
    (nodes.kindOf id).isDeclaration ∧ (mark = .declared (nodes.get id).name? ∨ ∃ type, mark = .builtin type) ∨
    (nodes.kindOf id).isType ∧ (∃ name, mark = .className name ∧ (nodes.get id).name? = some name) ∨
    mark = .list := by
  have declared {name : Option String} {type : Option TypeRef} {a} (found : type = some a)
      (marks : TypeRef.declared name a = .mark mark) : ∃ type, mark = .builtin type :=
    declared_mark (List.mem_map.mpr ⟨a, Option.mem_toList.mpr found, marks⟩)
  unfold entries at listed
  cases construct : (nodes.get id).construct <;>
    simp only [construct, List.cons_append, List.mem_cons, List.mem_append, List.mem_map, Option.mem_toList,
      Entry.mark.injEq, Node.modelEntries, attributeEntries, reduceCtorEq, and_false, exists_false, or_false,
      List.not_mem_nil] at listed <;>
    simp only [kindOf, Node.kind, Node.name?, construct, Construct.kind, Construct.name?, Kind.isDeclaration,
      Kind.isType, true_and]
  case element | attr =>
    rcases listed with stated | ⟨_, found, marks⟩
    · exact Or.inl (Or.inl stated)
    · exact Or.inl (Or.inr (declared found marks))
  case complexType =>
    obtain ⟨name, found, same⟩ := listed
    exact Or.inr (Or.inl ⟨name, same.symm, found⟩)
  case simpleType =>
    rcases listed with ⟨name, found, same⟩ | listed
    · exact Or.inr (Or.inl ⟨name, same.symm, found⟩)
    · split at listed <;> simp at listed
  case restriction | extension =>
    obtain ⟨_, found, marks⟩ := listed
    exact absurd (List.mem_map.mpr ⟨_, Option.mem_toList.mpr found, marks⟩) extended_ne_mark
  case list => exact Or.inr (Or.inr (item_mark listed))

theorem append_cases (listed : .append other ∈ nodes.planned id) :
    (∃ kind, kind.isGroup ∧ other ∈ (nodes.get id).childrenOf kind) ∨ other = id ∧ (nodes.kindOf id).isGroup := by
  have listed : .append other ∈ nodes.entries id := by
    rcases mem_planned listed with listed | ⟨_, other⟩ | ⟨_, _, other, _⟩
    · exact listed
    · cases other
    · cases other
  have declared {name : Option String} {type : Option TypeRef} :
      .append other ∉ type.toList.map (TypeRef.declared name) := by
    rcases type with _ | (_ | _ | _ | _) <;> simp [TypeRef.declared]
  have extended {base : Option TypeRef} : .append other ∉ base.toList.map TypeRef.extended := by
    rcases base with _ | (_ | _ | _ | _) <;> simp [TypeRef.extended]
  have model (listed : .append other ∈ (nodes.get id).modelEntries) :
      ∃ kind, kind.isGroup ∧ other ∈ (nodes.get id).childrenOf kind := by
    simp only [Node.modelEntries, List.mem_map, List.mem_append, Option.mem_toList, Entry.append.injEq,
      exists_eq_right] at listed
    rcases listed with (found | found) | found
    all_goals exact ⟨_, rfl, mem_childrenOf_of_child? found⟩
  have attributes (listed : .append other ∈ nodes.attributeEntries (nodes.get id)) :
      ∃ kind, kind.isGroup ∧ other ∈ (nodes.get id).childrenOf kind := by
    simp only [attributeEntries, List.mem_append, List.mem_map, reduceCtorEq, and_false, exists_false, false_or,
      Entry.append.injEq, exists_eq_right] at listed
    exact ⟨.attrGroup, rfl, listed⟩
  unfold entries at listed
  cases construct : (nodes.get id).construct <;> simp only [construct, List.mem_append, List.cons_append] at listed
  case element decl => simp [declared] at listed
  case attr decl => simp [declared] at listed
  case complexType =>
    rcases listed with (((listed | listed) | listed) | listed) | listed
    · simp at listed
    · simp at listed
    · exact Or.inl (model listed)
    · obtain ⟨_, found, same⟩ := List.mem_map.mp listed
      cases same
      exact Or.inl ⟨.all, rfl, mem_childrenOf_of_child? (Option.mem_toList.mp found)⟩
    · exact Or.inl (attributes listed)
  case simpleType =>
    rcases listed with (listed | listed) | listed
    · simp at listed
    · simp at listed
    · split at listed <;> simp at listed
  case simpleContent | complexContent => simp at listed
  case restriction =>
    rcases listed with (((listed | listed) | listed) | listed) | listed
    · exact absurd listed extended
    · exact Or.inl (model listed)
    · exact Or.inl (attributes listed)
    · simp at listed
    · simp at listed
  case extension =>
    rcases listed with (listed | listed) | listed
    · exact absurd listed extended
    · exact Or.inl (model listed)
    · exact Or.inl (attributes listed)
  case list itemType =>
    have plain : .append other ∉ (nodes.get id).itemEntries itemType := by
      cases itemType with
      | some type => cases type <;> simp [Node.itemEntries]
      | none => cases child : (nodes.get id).child? .simpleType <;> simp [Node.itemEntries, child]
    exact absurd listed plain
  case union => simp at listed
  all_goals
    simp only [List.mem_singleton, Entry.append.injEq] at listed
    exact Or.inr ⟨listed, by simp [kindOf, Node.kind, construct, Construct.kind, Kind.isGroup]⟩

private theorem particle_leaf {member : NodeId} (leaf : nodes.particle member = .leaf other) :
    member = other ∧ nodes.kindOf other = .element := by
  unfold particle at leaf
  split at leaf
  · cases leaf
    exact ⟨rfl, by assumption⟩
  · cases leaf

private theorem particle_group {member : NodeId} (group : nodes.particle member = .group other) :
    member = other ∧ nodes.kindOf other ≠ .element := by
  unfold particle at group
  split at group
  · cases group
  · cases group
    exact ⟨rfl, by assumption⟩

/-- The leaves of a group are elements, attributes, or types directly in the schema. -/
theorem leaf_cases (group : (nodes.kindOf id).isGroup) (listed : .leaf other ∈ nodes.parts id) :
    (nodes.kindOf id = .schema ∧ ∃ kind, other ∈ (nodes.get id).childrenOf kind) ∨
    other ∈ (nodes.get id).childrenOf .attr ∨
    nodes.kindOf other = .element ∧ ∃ kind, other ∈ (nodes.get id).childrenOf kind := by
  have referred {ref : NodeRef} {unresolved : String → Notice} : .leaf other ≠ referredPart ref unresolved := by
    cases ref <;> simp [referredPart]
  simp only [kindOf, Node.kind] at group ⊢
  unfold parts at listed
  cases construct : (nodes.get id).construct with
  | schema _ =>
    simp only [construct, List.mem_map, List.mem_append, Part.leaf.injEq, exists_eq_right] at listed
    refine Or.inl ⟨rfl, ?_⟩
    rcases listed with (listed | listed) | listed
    all_goals exact ⟨_, listed⟩
  | group _ ref _ =>
    cases ref with
    | none => simp [construct] at listed
    | some ref => simp [construct, referred] at listed
  | attrGroup _ ref =>
    cases ref with
    | none =>
      simp only [construct, attributes, List.mem_append, List.mem_map, List.mem_filter, Part.leaf.injEq, reduceCtorEq,
        and_false, exists_false, or_false, exists_eq_right] at listed
      exact Or.inr (Or.inl listed.1)
    | some ref => simp [construct, referred] at listed
  | sequence _ | choice _ | all _ =>
    simp only [construct, List.mem_map] at listed
    obtain ⟨_, ⟨child, member, rfl⟩, leaf⟩ := listed
    obtain ⟨same, element⟩ := particle_leaf leaf
    exact Or.inr (Or.inr ⟨element, child.kind, mem_childrenOf.mpr (same ▸ member)⟩)
  | _ => simp [construct, Construct.kind, Kind.isGroup] at group

theorem group_cases (group : (nodes.kindOf id).isGroup) (listed : .group other ∈ nodes.parts id) :
    (∃ kind, kind.isGroup ∧ other ∈ (nodes.get id).childrenOf kind) ∨
    ((nodes.kindOf id).isModel ∧ nodes.kindOf other ≠ .element ∧ ∃ kind, other ∈ (nodes.get id).childrenOf kind) ∨
    (nodes.get id).construct.nodeRef? = some (.resolved other) := by
  have referred {ref : NodeRef} {unresolved : String → Notice} (same : .group other = referredPart ref unresolved) :
      ref = .resolved other := by
    cases ref <;> simp_all [referredPart]
  simp only [kindOf, Node.kind] at group ⊢
  unfold parts at listed
  cases construct : (nodes.get id).construct with
  | schema _ => simp [construct] at listed
  | group _ ref _ =>
    cases ref with
    | none =>
      simp only [construct, List.mem_map, List.mem_append, Option.mem_toList, Part.group.injEq,
        exists_eq_right] at listed
      rcases listed with (found | found) | found
      all_goals exact Or.inl ⟨_, rfl, mem_childrenOf_of_child? found⟩
    | some ref =>
      simp only [construct, List.mem_singleton] at listed
      exact Or.inr (Or.inr (congrArg some (referred listed)))
  | attrGroup _ ref =>
    cases ref with
    | none =>
      simp only [construct, List.mem_append, List.mem_map, reduceCtorEq, and_false, exists_false, false_or,
        Part.group.injEq, exists_eq_right] at listed
      exact Or.inl ⟨.attrGroup, rfl, listed⟩
    | some ref =>
      simp only [construct, List.mem_singleton] at listed
      exact Or.inr (Or.inr (congrArg some (referred listed)))
  | sequence _ | choice _ | all _ =>
    simp only [construct, List.mem_map] at listed
    obtain ⟨_, ⟨child, member, rfl⟩, group⟩ := listed
    obtain ⟨same, different⟩ := particle_group group
    exact Or.inr (Or.inl ⟨rfl, different, child.kind, mem_childrenOf.mpr (same ▸ member)⟩)
  | _ => simp [construct, Construct.kind, Kind.isGroup] at group

theorem share_cases {referenced : NodeId} (plan : nodes.plan id = .share referenced) :
    (nodes.get id).construct.nodeRef? = some (.resolved referenced) ∧
      (nodes.kindOf id = .element ∨ nodes.kindOf id = .attr) := by
  simp only [kindOf, Node.kind]
  unfold Nodes.plan at plan
  cases construct : (nodes.get id).construct with
  | element decl =>
    simp only [construct] at plan
    rcases ref : decl.ref with _ | (_ | _)
    · simp [ref] at plan
    · simp [ref] at plan
    · by_cases repeated : decl.occurs.isMultiple = true
      · simp [ref, repeated] at plan
      · simp only [ref, repeated, Bool.false_eq_true, if_false, Plan.share.injEq] at plan
        exact ⟨by simp [Construct.nodeRef?, ref, plan], Or.inl rfl⟩
  | attr decl =>
    obtain ⟨name, type, ref, usage⟩ := decl
    rcases ref with _ | (_ | _)
    · simp [construct] at plan
    · simp [construct] at plan
    · simp only [construct, Plan.share.injEq] at plan
      exact ⟨by simp [Construct.nodeRef?, plan], Or.inr rfl⟩
  | _ => simp [construct] at plan

theorem plan_of_inner (inner : (nodes.kindOf id).isInner) :
    nodes.plan id = .build (nodes.derivationNotices id) none (nodes.entries id) := by
  cases construct : (nodes.get id).construct with
  | element | attr => simp [kindOf, Node.kind, construct, Construct.kind, Kind.isInner] at inner
  | _ => simp only [plan, construct]

namespace Formed
variable (formed : nodes.Formed)
include formed

theorem ask_lt {role : Role} (asked : .ask role other ∈ nodes.planned id) : other < nodes.size := by
  rcases ask_cases asked with (named | named) | member | ⟨_, member⟩ | ⟨_, use⟩
  · exact (formed.simple id other named).1
  · exact (formed.complex id other named).1
  · exact formed.child_lt member
  · exact formed.child_lt member
  · exact (formed.ref id other use).1

theorem share_lt {referenced : NodeId} (plan : nodes.plan id = .share referenced) : referenced < nodes.size :=
  (formed.ref id referenced (share_cases plan).1).1

theorem embeds_after {inner : NodeId} (embeds : nodes.Embeds id inner) : id < inner := by
  obtain ⟨_, _, _, member⟩ := embeds.child
  exact formed.child_after member

theorem embeds_lt {inner : NodeId} (embeds : nodes.Embeds id inner) : inner < nodes.size := by
  obtain ⟨_, _, _, member⟩ := embeds.child
  exact formed.child_lt member

theorem embedded_kind {inner : NodeId} (embedded : nodes.Embedded inner) : (nodes.kindOf inner).isInner := by
  obtain ⟨_, embeds⟩ := embedded
  obtain ⟨_, kind, isInner, member⟩ := embeds.child
  rw [formed.child_kind member]
  exact isInner

theorem embeds_type {inner : NodeId} (embeds : nodes.Embeds id inner) (isType : (nodes.kindOf inner).isType) :
    (nodes.kindOf id).isDeclaration := by
  obtain ⟨_, kind, _, _, declaration, found⟩ := embeds.child?
  rw [formed.child_kind (mem_childrenOf_of_child? found)] at isType
  exact declaration isType

theorem embedded_plan {inner : NodeId} (embedded : nodes.Embedded inner) :
    ∃ notices, nodes.plan inner = .build notices none (nodes.entries inner) :=
  ⟨_, plan_of_inner (formed.embedded_kind embedded)⟩

/-- A node fills no other builder than that of its parent. -/
theorem embeds_unique {first second inner : NodeId} (left : nodes.Embeds first inner)
    (right : nodes.Embeds second inner) : first = second := by
  obtain ⟨_, _, _, left⟩ := left.child
  obtain ⟨_, _, _, right⟩ := right.child
  have same := (formed.child_parent left).symm.trans (formed.child_parent right)
  exact Option.some.inj same

theorem append_lt (inside : id < nodes.size) (listed : .append other ∈ nodes.planned id) : other < nodes.size := by
  rcases append_cases listed with ⟨_, _, member⟩ | ⟨rfl, _⟩
  · exact formed.child_lt member
  · exact inside

theorem append_group (listed : .append other ∈ nodes.planned id) : (nodes.kindOf other).isGroup := by
  rcases append_cases listed with ⟨_, group, member⟩ | ⟨rfl, group⟩
  · rw [formed.child_kind member]
    exact group
  · exact group

theorem leaf_lt (group : (nodes.kindOf id).isGroup) (listed : .leaf other ∈ nodes.parts id) : other < nodes.size := by
  rcases leaf_cases group listed with ⟨_, _, member⟩ | member | ⟨_, _, member⟩
  all_goals exact formed.child_lt member

theorem group_lt (group : (nodes.kindOf id).isGroup) (listed : .group other ∈ nodes.parts id) : other < nodes.size := by
  rcases group_cases group listed with ⟨_, _, member⟩ | ⟨_, _, _, member⟩ | ref
  · exact formed.child_lt member
  · exact formed.child_lt member
  · exact (formed.ref id other ref).1

theorem group_group (group : (nodes.kindOf id).isGroup) (listed : .group other ∈ nodes.parts id) :
    (nodes.kindOf other).isGroup := by
  rcases group_cases group listed with ⟨_, isGroup, member⟩ | ⟨model, different, kind, member⟩ | ref
  · rw [formed.child_kind member]
    exact isGroup
  · have particle := (formed.placed id).particle model _ (mem_childrenOf.mp member)
    rw [formed.child_kind member] at different ⊢
    simp only [Reading.particles, List.mem_cons, List.not_mem_nil, or_false] at particle
    rcases particle with rfl | rfl | rfl | rfl
    · exact absurd rfl different
    all_goals rfl
  · rw [(formed.ref id other ref).2.1]
    exact group

theorem not_embedded_of_schema {parent : NodeId} (found : (nodes.get other).parent = some parent)
    (schema : nodes.kindOf parent = .schema) : ¬nodes.Embedded other := by
  rintro ⟨id, embeds⟩
  obtain ⟨outer, _, _, member⟩ := embeds.child
  have same := Option.some.inj ((formed.child_parent member).symm.trans found)
  rw [same, schema] at outer
  exact Bool.false_ne_true outer

theorem not_embedded_of_kind (inner : (nodes.kindOf other).isInner = false) : ¬nodes.Embedded other := by
  intro embedded
  rw [formed.embedded_kind embedded] at inner
  exact Bool.false_ne_true inner.symm

theorem ask_apart (top : nodes.TypesOnTop) {role : Role} (asked : .ask role other ∈ nodes.planned id) :
    ¬nodes.Embedded other := by
  have named (isType : (nodes.kindOf other).isType) (name : (nodes.get other).name?.isSome) :
      ¬nodes.Embedded other := by
    obtain ⟨parent, found, schema⟩ := top other isType name
    exact formed.not_embedded_of_schema found schema
  rcases ask_cases asked with (simple | complex) | member | ⟨outer, member⟩ | ⟨element, use⟩
  · obtain ⟨_, kind, name⟩ := formed.simple id other simple
    exact named (by rw [kind]; rfl) name
  · obtain ⟨_, kind, name⟩ := formed.complex id other complex
    exact named (by rw [kind]; rfl) name
  · exact formed.not_embedded_of_kind (by rw [formed.child_kind member]; rfl)
  · rintro ⟨_, embeds⟩
    obtain ⟨isOuter, _, _, child⟩ := embeds.child
    have same := Option.some.inj ((formed.child_parent child).symm.trans (formed.child_parent member))
    rw [same] at isOuter
    exact outer isOuter
  · exact formed.not_embedded_of_kind (by rw [(formed.ref id other use).2.1, element]; rfl)

theorem leaf_apart (group : (nodes.kindOf id).isGroup) (listed : .leaf other ∈ nodes.parts id) :
    ¬nodes.Embedded other := by
  rcases leaf_cases group listed with ⟨schema, _, member⟩ | member | ⟨element, _⟩
  · exact formed.not_embedded_of_schema (formed.child_parent member) schema
  · exact formed.not_embedded_of_kind (by rw [formed.child_kind member]; rfl)
  · exact formed.not_embedded_of_kind (by rw [element]; rfl)

theorem share_apart {referenced : NodeId} (plan : nodes.plan id = .share referenced) : ¬nodes.Embedded referenced := by
  obtain ⟨ref, kind⟩ := share_cases plan
  have same := (formed.ref id referenced ref).2.1
  rcases kind with kind | kind
  all_goals exact formed.not_embedded_of_kind (by rw [same, kind]; rfl)

theorem share_not_embedded {referenced : NodeId} (plan : nodes.plan id = .share referenced) : ¬nodes.Embedded id := by
  obtain ⟨_, kind⟩ := share_cases plan
  rcases kind with kind | kind
  all_goals exact formed.not_embedded_of_kind (by rw [kind]; rfl)

end Formed

end SchemaClasses.Nodes
