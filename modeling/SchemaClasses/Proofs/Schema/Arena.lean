import SchemaClasses.Proofs.DepthFirst
import SchemaClasses.Proofs.Grouping
import SchemaClasses.Proofs.Schema.Loading

/-! The nodes that are read from a document are a tree. They are numbered depth first, and each lists those that it is
the parent of. -/

namespace SchemaClasses

def Node.inner (node : Node) : List NodeId :=
  node.children.map Child.id

namespace Nodes

def parent? (nodes : Nodes) (id : NodeId) : Option NodeId :=
  (nodes.get id).parent

/-- The first node is the root. Every other one stands in an earlier one and is listed once, by that alone. What is
inside of a node has the numbers that follow next. -/
structure Arena (nodes : Nodes) : Prop where
  root : 0 < nodes.size ∧ nodes.parent? 0 = none
  stands : ∀ id, 0 < id → id < nodes.size → ∃ parent, nodes.parent? id = some parent ∧ parent < id
  listed : ∀ id parent, (nodes.get parent).inner.count id = if nodes.parent? id = some parent then 1 else 0
  interval : ∀ id < nodes.size, ∃ stop ≤ nodes.size, ∀ other, Within nodes.parent? id other ↔ id ≤ other ∧ other < stop

variable {nodes before middle after : Nodes} {outer : Option NodeId} {tops more : List NodeId} {id : NodeId}

theorem lt_of_parent? {parent : NodeId} (stands : nodes.parent? id = some parent) : id < nodes.size :=
  @lt_of_get nodes id (fun node => node.parent = some parent) stands fun same => Option.some_ne_none _ same.symm

/-- A node lists the later nodes that it is the parent of, each once. -/
structure Lists (nodes : Nodes) (id : NodeId) : Prop where
  distinct : (nodes.get id).inner.Nodup
  mem : ∀ child, child ∈ (nodes.get id).inner ↔ id < child ∧ nodes.parent? child = some id

/-- Nodes that come to those before. Some stand directly in an outer node, the others stand in one another. -/
structure Grows (outer : Option NodeId) (before after : Nodes) (tops : List NodeId) : Prop where
  size : before.size ≤ after.size
  old : ∀ id < before.size, after.get id = before.get id
  distinct : tops.Nodup
  direct : ∀ id ∈ tops, before.size ≤ id ∧ id < after.size ∧ after.parent? id = outer
  deeper : ∀ id, before.size ≤ id → id < after.size →
    id ∈ tops ∨ ∃ parent, after.parent? id = some parent ∧ before.size ≤ parent ∧ parent < id
  lists : ∀ id, before.size ≤ id → id < after.size → after.Lists id
  next : ∀ id parent, before.size ≤ id → after.parent? (id + 1) = some parent → Within after.parent? parent id

namespace Grows

theorem refl (outer : Option NodeId) (nodes : Nodes) : Grows outer nodes nodes [] where
  size := Nat.le_refl _
  old _ _ := rfl
  distinct := .nil
  direct _ member := (List.not_mem_nil member).elim
  deeper _ behind inside := absurd inside (Nat.not_lt.mpr behind)
  lists _ behind inside := absurd inside (Nat.not_lt.mpr behind)
  next _ _ behind stands := absurd (lt_of_parent? stands) (Nat.not_lt.mpr (Nat.le_succ_of_le behind))

theorem parent?_old (grows : Grows outer before after tops) (earlier : id < before.size) :
    after.parent? id = before.parent? id :=
  congrArg Node.parent (grows.old id earlier)

theorem keeps (grows : Grows outer before after tops) {child parent : NodeId}
    (stands : before.parent? child = some parent) :
    after.parent? child = some parent :=
  (grows.parent?_old (lt_of_parent? stands)).trans stands

theorem above (grows : Grows outer before after tops) (later : before.size ≤ id) {parent : NodeId}
    (stands : after.parent? id = some parent) : outer = some parent ∨ before.size ≤ parent ∧ parent < id := by
  rcases grows.deeper id later (lt_of_parent? stands) with member | ⟨other, same, behind, earlier⟩
  · exact Or.inl ((grows.direct id member).2.2.symm.trans stands)
  · obtain rfl := Option.some.inj (same.symm.trans stands)
    exact Or.inr ⟨behind, earlier⟩

theorem within {outer : NodeId} (grows : Grows (some outer) before after tops) (later : before.size ≤ id)
    (inside : id < after.size) :
    Within after.parent? outer id := by
  induction id using Nat.strongRecOn with
  | ind id ih =>
    rcases grows.deeper id later inside with member | ⟨parent, stands, behind, earlier⟩
    · exact .parent (grows.direct id member).2.2
    · exact (ih parent earlier behind (Nat.lt_trans earlier inside)).trans (.parent stands)

section Trans
variable (first : Grows outer before middle tops) (last : Grows outer middle after more)
  (top : ∀ id, outer = some id → id < before.size)
include first last top

private theorem trans_lists (behind : before.size ≤ id) (earlier : id < middle.size) : after.Lists id := by
  obtain ⟨distinct, mem⟩ := first.lists id behind earlier
  have same := last.old id earlier
  constructor
  · rw [same]
    exact distinct
  · intro child
    rw [same, mem]
    refine and_congr_right fun _ => ⟨last.keeps, fun stands => ?_⟩
    rcases Nat.lt_or_ge child middle.size with old | new
    · rw [← last.parent?_old old]
      exact stands
    · rcases last.above new stands with outside | ⟨later, _⟩
      · exact absurd (top id outside) (Nat.not_lt.mpr behind)
      · exact absurd earlier (Nat.not_lt.mpr later)

private theorem trans_next {parent : NodeId} (behind : before.size ≤ id)
    (stands : after.parent? (id + 1) = some parent) :
    Within after.parent? parent id := by
  rcases Nat.lt_or_ge (id + 1) middle.size with earlier | later
  · rw [last.parent?_old earlier] at stands
    exact (first.next id parent behind stands).mono fun _ _ => last.keeps
  · rcases Nat.lt_or_ge id middle.size with old | new
    · -- The first of the later nodes can only stand in the outer node.
      rcases last.above later stands with rfl | ⟨later, earlier⟩
      · exact (first.within behind old).mono fun _ _ => last.keeps
      · exact absurd (Nat.lt_of_lt_of_le old later) (Nat.not_lt.mpr (Nat.le_of_lt_succ earlier))
    · exact last.next id parent new stands

theorem trans : Grows outer before after (tops ++ more) where
  size := Nat.le_trans first.size last.size
  old id earlier := (last.old id (Nat.lt_of_lt_of_le earlier first.size)).trans (first.old id earlier)
  distinct := by
    refine List.nodup_append.mpr ⟨first.distinct, last.distinct, ?_⟩
    intro one member other among
    exact Nat.ne_of_lt (Nat.lt_of_lt_of_le (first.direct one member).2.1 (last.direct other among).1)
  direct id member := by
    rcases List.mem_append.mp member with member | member
    · obtain ⟨behind, inside, stands⟩ := first.direct id member
      exact ⟨behind, Nat.lt_of_lt_of_le inside last.size, (last.parent?_old inside).trans stands⟩
    · obtain ⟨behind, inside, stands⟩ := last.direct id member
      exact ⟨Nat.le_trans first.size behind, inside, stands⟩
  deeper id behind inside := by
    rcases Nat.lt_or_ge id middle.size with earlier | later
    · rw [last.parent?_old earlier]
      exact (first.deeper id behind earlier).imp_left (List.mem_append_left _)
    · rcases last.deeper id later inside with member | ⟨parent, stands, after, earlier⟩
      · exact Or.inl (List.mem_append_right _ member)
      · exact Or.inr ⟨parent, stands, Nat.le_trans first.size after, earlier⟩
  lists id behind inside := by
    rcases Nat.lt_or_ge id middle.size with earlier | later
    · exact trans_lists first last top behind earlier
    · exact last.lists id later inside
  next _ _ := trans_next first last top

end Trans

section Node
variable {fresh : Node} {construct : Construct} {children : List Child}

theorem parent?_modify : Nodes.parent? (nodes.modify id ({ · with construct, children })) = nodes.parent? := by
  funext other
  by_cases same : id = other
  · subst same
    rcases Nat.lt_or_ge id nodes.size with inside | outside
    · rw [parent?, Reading.get_modify_same inside, parent?]
    · simp [parent?, get, Nat.not_lt.mpr outside]
  · rw [parent?, Reading.get_modify_other same, parent?]

variable (inner : Grows (some before.size) (before.push fresh) middle tops)
include inner

private theorem fresh_lt : before.size < middle.size :=
  Nat.lt_of_lt_of_le (by simp) inner.size

private theorem node_parent? : middle.parent? before.size = fresh.parent := by
  rw [inner.parent?_old (by simp), parent?, Reading.get_push_new]

private theorem node_lists (listed : (children.map Child.id).Perm tops) :
    Nodes.Lists (middle.modify before.size ({ · with construct, children })) before.size := by
  have self := Reading.get_modify_same (f := ({ · with construct, children })) inner.fresh_lt
  constructor
  · rw [self]
    exact listed.nodup_iff.mpr inner.distinct
  · intro child
    rw [self, Node.inner, listed.mem_iff, parent?_modify]
    constructor
    · intro member
      obtain ⟨behind, _, stands⟩ := inner.direct child member
      rw [Array.size_push] at behind
      exact ⟨behind, stands⟩
    · intro ⟨behind, stands⟩
      have later : (before.push fresh).size ≤ child := Nat.le_trans (Nat.le_of_eq (Array.size_push _)) behind
      rcases inner.deeper child later (lt_of_parent? stands) with member | ⟨parent, same, after, _⟩
      · exact member
      · obtain rfl := Option.some.inj (same.symm.trans stands)
        rw [Array.size_push] at after
        exact absurd after (Nat.not_succ_le_self _)

private theorem node_next {parent : NodeId} (behind : before.size ≤ id)
    (stands : middle.parent? (id + 1) = some parent) :
    Within middle.parent? parent id := by
  rcases Nat.eq_or_lt_of_le behind with rfl | later
  · rcases inner.above (Nat.le_of_eq (Array.size_push _)) stands with same | ⟨after, earlier⟩
    · obtain rfl := Option.some.inj same
      exact .refl
    · rw [Array.size_push] at after
      exact absurd after (Nat.not_le.mpr earlier)
  · exact inner.next id parent (by rw [Array.size_push]; exact later) stands

theorem node (listed : (children.map Child.id).Perm tops) :
    Grows fresh.parent before (middle.modify before.size ({ · with construct, children })) [before.size] := by
  have grown := inner.fresh_lt
  have size : (middle.modify before.size ({ · with construct, children })).size = middle.size := Array.size_modify
  have parents : Nodes.parent? (middle.modify before.size ({ · with construct, children })) = middle.parent? :=
    parent?_modify
  have other {id : NodeId} (different : before.size ≠ id) :
      Nodes.get (middle.modify before.size ({ · with construct, children })) id = middle.get id :=
    Reading.get_modify_other different
  have pushed {id : NodeId} (later : before.size < id) : (before.push fresh).size ≤ id := by
    rw [Array.size_push]
    exact later
  refine ⟨size ▸ Nat.le_of_lt grown, ?_, List.nodup_singleton _, ?_, ?_, ?_, ?_⟩
  · intro id earlier
    rw [other (Nat.ne_of_gt earlier), inner.old id (by simp; omega), Reading.get_push_old earlier]
  · intro id member
    obtain rfl := List.mem_singleton.mp member
    exact ⟨Nat.le_refl _, size ▸ grown, parents ▸ inner.node_parent?⟩
  · intro id behind inside
    rw [parents]
    rcases Nat.eq_or_lt_of_le behind with rfl | later
    · exact Or.inl List.mem_cons_self
    · rcases inner.deeper id (pushed later) (size ▸ inside) with member | ⟨parent, stands, after, earlier⟩
      · exact Or.inr ⟨before.size, (inner.direct id member).2.2, Nat.le_refl _, later⟩
      · rw [Array.size_push] at after
        exact Or.inr ⟨parent, stands, Nat.le_of_lt after, earlier⟩
  · intro id behind inside
    rcases Nat.eq_or_lt_of_le behind with rfl | later
    · exact inner.node_lists listed
    · obtain ⟨distinct, mem⟩ := inner.lists id (pushed later) (size ▸ inside)
      constructor <;> rw [other (Nat.ne_of_lt later)]
      · exact distinct
      · rw [parents]
        exact mem
  · intro id parent behind stands
    rw [parents] at stands ⊢
    exact inner.node_next behind stands

end Node

/-- Nodes of which only the first stands in nothing are a tree. -/
theorem depthFirst (grows : Grows none #[] nodes [0]) : DepthFirst nodes.parent? nodes.size where
  root := (grows.direct 0 List.mem_cons_self).2.2
  inside _ _ := lt_of_parent?
  after child parent stands := by
    rcases grows.above (Nat.zero_le _) stands with top | ⟨_, earlier⟩
    · cases top
    · exact earlier
  stands child later inside := by
    rcases grows.deeper child (Nat.zero_le _) inside with member | ⟨parent, stands, _⟩
    · exact absurd (List.mem_singleton.mp member) (Nat.ne_of_gt later)
    · exact ⟨parent, stands⟩
  next last parent := grows.next last parent (Nat.zero_le _)

theorem arena (grows : Grows none #[] nodes [0]) : nodes.Arena where
  root := (grows.direct 0 List.mem_cons_self).2
  stands id later inside := by
    obtain ⟨parent, stands⟩ := grows.depthFirst.stands id later inside
    exact ⟨parent, stands, grows.depthFirst.after id parent stands⟩
  listed id parent := by
    rcases Nat.lt_or_ge parent nodes.size with inside | outside
    · obtain ⟨distinct, mem⟩ := grows.lists parent (Nat.zero_le _) inside
      rw [List.Nodup.count distinct]
      refine if_congr ((mem id).trans ?_) rfl rfl
      exact and_iff_right_of_imp (grows.depthFirst.after id parent)
    · have absent := Nodes.get_outside outside
      rw [absent, if_neg]
      · rfl
      · intro stands
        have earlier := Nat.lt_trans (grows.depthFirst.after id parent stands) (lt_of_parent? stands)
        exact absurd earlier (Nat.not_lt.mpr outside)
  interval id inside := by
    obtain ⟨stop, interval⟩ := grows.depthFirst.interval id
    refine ⟨min stop nodes.size, Nat.min_le_right _ _, fun other => ?_⟩
    rw [Nat.lt_min, ← and_assoc]
    constructor
    · intro within
      have within' : other < nodes.size := by
        rcases within.eq_or_parent with rfl | ⟨_, stands, _⟩
        · exact inside
        · exact lt_of_parent? stands
      exact ⟨(interval other within').mp within, within'⟩
    · intro within
      exact (interval other within.2).mpr within.1

end Grows
end Nodes

namespace Reading

theorem top_of_steps {parent : Option Kind} {kind : Kind} {tree child : Tree}
    (listed : .read kind child ∈ steps parent .schema tree) :
    kind ∈ topLevel := by
  obtain ⟨found, _, step⟩ := List.mem_filterMap.mp listed
  unfold stepAmong at step
  split at step
  · cases step
    exact List.mem_of_find?_eq_some ‹_›
  · split at step <;> cases step

theorem arrange_perm {kind : Kind} {children : List Child}
    (top : kind = .schema → ∀ child ∈ children, child.kind ∈ topLevel) :
    (arrange kind children).Perm children := by
  unfold arrange
  split
  · next schema => exact flatMap_filter_perm (by decide) (top schema)
  · exact .refl _

section Children
variable {limits : Limits} {own : Child} {steps : List Step} {children : List Child} {before after : State}

theorem children_grow (inner : ∀ kind tree, .read kind tree ∈ steps → ∀ before id after,
      Ends (node limits (some own) kind tree) before id after → Nodes.Grows (some own.id) before.nodes after.nodes [id])
    (ends : Ends (steps.filterMapM (readStep limits own)) before children after) (top : own.id < before.nodes.size) :
    Nodes.Grows (some own.id) before.nodes after.nodes (children.map Child.id) := by
  induction steps generalizing before children with
  | nil =>
    obtain ⟨rfl, rfl⟩ := Ends.pure ends
    exact .refl _ _
  | cons step steps ih =>
    have inner' (kind : Kind) (tree : Tree) (member : .read kind tree ∈ steps) :=
      inner kind tree (List.mem_cons_of_mem _ member)
    cases step with
    | skip notice =>
      have rest := ih inner' (skip_ends ends) top
      exact rest
    | read kind tree =>
      obtain ⟨id, middle, rest, node, remaining, rfl⟩ := read_ends ends
      have one := inner kind tree List.mem_cons_self _ _ _ node
      have others := ih inner' remaining (Nat.lt_of_lt_of_le top one.size)
      exact one.trans others fun id same => Option.some.inj same ▸ top

end Children

theorem node_grows {limits : Limits} {parent : Option Child} {kind : Kind} {tree : Tree} {id : NodeId}
    {before after : State} (ends : Ends (node limits parent kind tree) before id after) :
    Nodes.Grows (parent.map Child.id) before.nodes after.nodes [id] := by
  obtain ⟨entered, construct, children, middle, enters, _, stepped, _, nodes⟩ := node_ends ends
  obtain ⟨rfl, pushed⟩ := enter_ends enters
  have read := children_read (fun _ _ _ _ _ _ => node_isRead) stepped
  have inner := children_grow (fun childKind child listed before id after ends => node_grows ends) stepped
    (by simp [pushed])
  have listed : (arrange kind children).Perm children := by
    apply arrange_perm
    intro schema child member
    obtain ⟨_, listed⟩ := read.listed child member
    exact top_of_steps (schema ▸ listed)
  rw [pushed] at inner
  rw [nodes]
  exact inner.node (listed.map Child.id)
termination_by sizeOf tree
decreasing_by exact Tree.sizeOf_lt_of_mem_children (mem_children_of_mem_steps listed)

theorem document_ends {limits : Limits} {source : Document} {root : NodeId} {before after : State}
    (ends : Ends (document limits source) before root after) :
    ∃ tree middle, source.tree? = some tree ∧ tree.name = Kind.schema.tag ∧
      Ends (node limits none .schema tree) before root middle ∧ after.nodes = middle.nodes ∧
        after.links = middle.links := by
  unfold document at ends
  split at ends
  · cases ends
  · next tree found =>
    split at ends
    · cases ends
    · next named =>
      obtain ⟨_, middle, read, afterRead⟩ := ends.bind
      obtain ⟨_, _, counted, afterCount⟩ := afterRead.bind
      obtain ⟨rfl, rfl⟩ := counted.get
      obtain ⟨_, _, reported, afterReport⟩ := afterCount.bind
      obtain ⟨rfl, rfl⟩ := afterReport.pure
      have same := reported.modify
      subst same
      exact ⟨tree, _, found, not_not.mp named, read, rfl, rfl⟩

theorem document_arena {limits : Limits} {source : Document} {root : NodeId} {links : Links} {after : State}
    (ends : Ends (document limits source) { links } root after) : root = 0 ∧ after.nodes.Arena := by
  obtain ⟨tree, middle, _, _, read, nodes, _⟩ := document_ends ends
  obtain rfl : root = 0 := (node_isRead read).first
  rw [nodes]
  exact ⟨rfl, (node_grows read).arena⟩

end Reading
end SchemaClasses
