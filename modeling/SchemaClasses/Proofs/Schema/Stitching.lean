import SchemaClasses.Proofs.Schema.Slots

/-! The nodes that are read from a document mirror the elements that they are linked to. -/

namespace SchemaClasses

namespace Reading
variable {source : Document} {limits : Limits}

structure Linked (state : State) (index : Nat) (own : Child) : Prop where
  slot : state.links.node? index = some own.id
  inside : own.id < state.nodes.size
  kind : state.nodes.kindOf own.id = own.kind

/-- An element is linked to a node of its kind, and what it stands in to what the node stands in. -/
def Stitched (state : State) (entry : Kind × Tree) : Prop :=
  ∃ id place outer, Linked state entry.2.index ⟨entry.1, id⟩ ∧ entry.2.element.parent = some place ∧
    state.links.node? place = some outer ∧ state.nodes.parent? id = some outer

/-- Nodes that keep their kinds and their parents. -/
structure Keeps (before after : Nodes) : Prop where
  size : before.size ≤ after.size
  kind : ∀ id < before.size, after.kindOf id = before.kindOf id
  parent : ∀ id < before.size, after.parent? id = before.parent? id

theorem Extends.keeps {before after : Nodes} (read : Extends before after) : Keeps before after where
  size := read.size
  kind id earlier := by rw [Nodes.kindOf, Nodes.kindOf, read.old id earlier]
  parent id earlier := by rw [Nodes.parent?, Nodes.parent?, read.old id earlier]

section Kept
variable {before after : State} {index : Nat} {own : Child} {entry : Kind × Tree}

theorem Linked.kept (linked : Linked before index own) (keeps : Keeps before.nodes after.nodes)
    (same : after.links.node? index = before.links.node? index) : Linked after index own where
  slot := same.trans linked.slot
  inside := Nat.lt_of_lt_of_le linked.inside keeps.size
  kind := (keeps.kind _ linked.inside).trans linked.kind

theorem Stitched.kept (stitched : Stitched before entry) (keeps : Keeps before.nodes after.nodes)
    (same : after.links.node? entry.2.index = before.links.node? entry.2.index)
    (above : ∀ place, entry.2.element.parent = some place → after.links.node? place = before.links.node? place) :
    Stitched after entry := by
  obtain ⟨id, place, outer, linked, stands, slot, parent⟩ := stitched
  have parent := (keeps.parent id linked.inside).trans parent
  exact ⟨id, place, outer, linked.kept keeps same, stands, (above place stands).trans slot, parent⟩

end Kept

/-- The children of an element that some steps read. -/
structure Siblings (source : Document) (place : Nat) (steps : List Step) : Prop where
  holds : ∀ kind child, .read kind child ∈ steps → source.Holds child
  stands : ∀ kind child, .read kind child ∈ steps → source.parent? child.index = some place
  apart : ((steps.filterMap Step.tree?).map Tree.index).Nodup

namespace Siblings
variable {place : Nat} {step : Step} {steps : List Step}

theorem tail (siblings : Siblings source place (step :: steps)) : Siblings source place steps where
  holds kind child member := siblings.holds kind child (List.mem_cons_of_mem _ member)
  stands kind child member := siblings.stands kind child (List.mem_cons_of_mem _ member)
  apart := siblings.apart.sublist (((List.sublist_cons_self _ _).filterMap _).map _)

variable (formed : source.Formed)
include formed

theorem ofTree {tree : Tree} (holds : source.Holds tree) (parent : Option Kind) (kind : Kind) :
    Siblings source tree.index (Reading.steps parent kind tree) := by
  cases holds with
  | @node index element children found listed below =>
    refine ⟨?_, ?_, ?_⟩
    · exact fun kind child member => below child (mem_children_of_mem_steps member)
    · intro kind child member
      rw [Tree.index, ← formed.mem_children found, ← listed]
      exact List.mem_map_of_mem (mem_children_of_mem_steps member)
    · have sorted : (children.map Tree.index).Nodup := by
        rw [listed]
        exact (formed.children_sorted found).imp Nat.ne_of_lt
      exact Subperm.nodup_map (steps_trees parent kind _) sorted

end Siblings

section Frame
variable {kind : Kind} {parent : Option Child} {tree : Tree} {id : NodeId} {before after : State} {index : Nat}

/-- What reading a tree does to links: its elements are linked to the next nodes. -/
theorem node_links (ends : Ends (node limits parent kind tree) before id after) :
    after.nodes.size = before.nodes.size + (reads (parent.map Child.kind) kind tree).length ∧
      after.links = linkAll ((reads (parent.map Child.kind) kind tree).map Prod.snd) before.nodes.size
        before.links := by
  obtain ⟨linked, _, size, links, whole⟩ := node_trace limits parent kind tree before
  rw [ends] at size links whole
  obtain rfl := whole id rfl
  rw [List.length_map] at size
  exact ⟨size, links⟩

theorem node_sized (ends : Ends (node limits parent kind tree) before id after) :
    after.links.size = before.links.size := by
  rw [(node_links ends).2, linkAll_size]

variable (formed : source.Formed) (holds : source.Holds tree)
include formed holds

theorem node_frame (ends : Ends (node limits parent kind tree) before id after)
    (outside : ¬Within source.parent? tree.index index) :
    after.links.node? index = before.links.node? index := by
  rw [(node_links ends).2]
  exact linkAll_other fun read => outside (reads_within formed holds read)

theorem reads_linked (ends : Ends (node limits parent kind tree) before id after)
    (sized : before.links.size = source.size)
    {place : Nat} {entry : Kind × Tree} (found : (reads (parent.map Child.kind) kind tree)[place]? = some entry) :
    after.links.node? entry.2.index = some (before.nodes.size + place) := by
  rw [(node_links ends).2]
  apply linkAll_get (reads_distinct formed holds)
  · intro part member
    rw [sized]
    exact (holds.parts part ((reads_subperm _ _ _).subset member)).inside .refl
  · rw [List.getElem?_map, found]
    rfl

theorem node_linked (ends : Ends (node limits parent kind tree) before id after)
    (sized : before.links.size = source.size) :
    Linked after tree.index ⟨kind, id⟩ := by
  have read := node_isRead ends
  have first : (reads (parent.map Child.kind) kind tree)[0]? = some (kind, tree) := by
    rw [reads_eq]
    rfl
  have slot := reads_linked formed holds ends sized first
  rw [Nat.add_zero, ← read.first] at slot
  exact ⟨slot, read.inside, read.kind⟩

end Frame

section Enter
variable {parent : Option NodeId} {kind : Kind} {tree : Tree} {id : NodeId} {before after : State}

theorem bare_kind (kind : Kind) : (Construct.bare kind).kind = kind := by
  cases kind <;> rfl

theorem enter_linked (ends : Ends (enter limits parent kind tree) before id after)
    (inside : tree.index < before.links.size) :
    Linked after tree.index ⟨kind, id⟩ ∧ after.links.size = before.links.size := by
  rw [Ends, enter_run] at ends
  cases checked : limits.check .nodes (before.nodes.size + 1) with
  | error error =>
    rw [checked] at ends
    cases ends
  | ok _ =>
    rw [checked] at ends
    cases ends
    refine ⟨⟨?_, Array.size_push _ ▸ Nat.lt_succ_self _, ?_⟩, Array.size_setIfInBounds⟩
    · rw [Links.node?, Array.getElem?_setIfInBounds_self_of_lt inside]
      rfl
    · rw [Nodes.kindOf, get_push_new]
      exact bare_kind kind

theorem leave_keeps {nodes : Nodes} {construct : Construct} {children : List Child}
    (same : construct.kind = nodes.kindOf id) :
    Keeps nodes (nodes.modify id ({ · with construct, children })) where
  size := Nat.le_of_eq Array.size_modify.symm
  kind other inside := by
    by_cases own : id = other
    · subst own
      rw [Nodes.kindOf, get_modify_same inside]
      exact same
    · rw [Nodes.kindOf, Nodes.kindOf, get_modify_other own]
  parent other _ := congrFun Nodes.Grows.parent?_modify other

end Enter

section Stitching
variable {own : Child} {place : Nat} {steps : List Step} {children : List Child} {before after : State}

theorem children_frame (formed : source.Formed) (siblings : Siblings source place steps) {index : Nat}
    (ends : Ends (steps.filterMapM (readStep limits own)) before children after)
    (outside : ∀ kind child, .read kind child ∈ steps → ¬Within source.parent? child.index index) :
    after.links.node? index = before.links.node? index := by
  obtain ⟨linked, begun, _, links, _⟩ :=
    children_trace (fun kind tree _ => node_trace limits (some own) kind tree) before
  rw [ends] at links
  rw [links]
  apply linkAll_other
  intro read
  obtain ⟨tree, begins, rfl⟩ := List.mem_map.mp read
  obtain ⟨entry, member, rfl⟩ := List.mem_map.mp (begun.subset begins)
  obtain ⟨step, listed, member⟩ := List.mem_flatMap.mp member
  cases step with
  | skip _ => cases member
  | read kind child =>
    exact outside kind child listed
      (reads_within formed (siblings.holds kind child listed) (List.mem_map_of_mem (List.mem_map_of_mem member)))

namespace Siblings
variable {kind : Kind} {child : Tree} (formed : source.Formed)
include formed

theorem outside (siblings : Siblings source place (.read kind child :: steps)) {index : Nat}
    (within : Within source.parent? child.index index) :
    ∀ kind other, .read kind other ∈ steps → ¬Within source.parent? other.index index := by
  intro otherKind other member inside
  have stands := siblings.stands kind child List.mem_cons_self
  have stands' := siblings.stands otherKind other (List.mem_cons_of_mem _ member)
  obtain ⟨new, _⟩ := List.nodup_cons.mp siblings.apart
  apply new
  rw [formed.order.same stands stands' within inside]
  exact List.mem_map_of_mem (List.mem_filterMap.mpr ⟨_, member, rfl⟩)

theorem below (siblings : Siblings source place steps) (listed : .read kind child ∈ steps) :
    ¬Within source.parent? child.index place :=
  fun within => Nat.not_lt.mpr (formed.order.le within) (formed.order.after _ _ (siblings.stands kind child listed))

end Siblings

theorem children_stitched (formed : source.Formed) (siblings : Siblings source place steps)
    (inner : ∀ kind child, .read kind child ∈ steps → ∀ before id after, before.links.size = source.size →
      Ends (node limits (some own) kind child) before id after →
        ∀ entry ∈ (Reading.steps (some own.kind) kind child).flatMap (Step.reads kind), Stitched after entry)
    (ends : Ends (steps.filterMapM (readStep limits own)) before children after)
    (linked : Linked before place own) (sized : before.links.size = source.size) :
    ∀ entry ∈ steps.flatMap (Step.reads own.kind), Stitched after entry := by
  induction steps generalizing before children with
  | nil => exact fun _ member => by cases member
  | cons step steps ih =>
    have inner' (kind : Kind) (child : Tree) (member : .read kind child ∈ steps) :=
      inner kind child (List.mem_cons_of_mem _ member)
    cases step with
    | skip notice => exact ih siblings.tail inner' (skip_ends ends) ⟨linked.slot, linked.inside, linked.kind⟩ sized
    | read kind child =>
      obtain ⟨id, middle, rest, node, remaining, rfl⟩ := read_ends ends
      have holds := siblings.holds kind child List.mem_cons_self
      have below := siblings.below formed List.mem_cons_self
      have read := node_isRead node
      have later := linked.kept read.grown.keeps (node_frame formed holds node below)
      have sized' := (node_sized node).trans sized
      intro entry member
      rcases List.mem_append.mp (List.flatMap_cons ▸ member) with member | member
      · have within := reads_within formed holds (List.mem_map_of_mem (List.mem_map_of_mem member))
        have others := siblings.outside formed within
        have whole := reads_hold holds member
        refine Stitched.kept ?_ (children_read (fun _ _ _ _ _ _ => node_isRead) remaining).grown.keeps
          (children_frame formed siblings.tail remaining others) fun above stands => ?_
        · rw [Step.reads, reads_eq] at member
          rcases List.mem_cons.mp member with rfl | member
          · have stands := siblings.stands kind child List.mem_cons_self
            rw [holds.parent?] at stands
            exact ⟨id, place, own.id, node_linked formed holds node sized, stands, later.slot, read.parent⟩
          · exact inner kind child List.mem_cons_self _ _ _ sized node entry member
        · apply children_frame formed siblings.tail remaining
          intro otherKind other listed inside
          have stands' := whole.parent?.trans stands
          exact others otherKind other listed (inside.trans (.parent stands'))
      · exact ih siblings.tail inner' remaining later sized' entry member

end Stitching

theorem node_stitched (formed : source.Formed) {parent : Option Child} {kind : Kind} {tree : Tree} {id : NodeId}
    {before after : State}
    (holds : source.Holds tree) (sized : before.links.size = source.size)
    (ends : Ends (node limits parent kind tree) before id after) :
    ∀ entry ∈ (steps (parent.map Child.kind) kind tree).flatMap (Step.reads kind), Stitched after entry := by
  obtain ⟨entered, construct, children, middle, enters, stated, stepped, links, nodes⟩ := node_ends ends
  have inside : tree.index < before.links.size := by
    rw [sized]
    exact holds.inside .refl
  obtain ⟨linked, sized'⟩ := enter_linked enters inside
  have siblings := Siblings.ofTree formed holds (parent.map Child.kind) kind
  have inner := children_stitched formed siblings
    (fun childKind child listed before id after => node_stitched formed (siblings.holds childKind child listed))
    stepped linked (sized'.trans sized)
  have kept := (children_read (fun _ _ _ _ _ _ => node_isRead) stepped).grown.keeps.kind id linked.inside
  have facets := @withFacets_ok tree (parent.map Child.kind) _ (stated_ok stated).2
  have same : (withFacets tree (parent.map Child.kind) construct).1.kind = middle.nodes.kindOf id := by
    rw [facets.1, (stated_ok stated).1]
    exact (kept.trans linked.kind).symm
  intro entry member
  apply (inner entry member).kept
  · rw [nodes]
    exact leave_keeps same
  · rw [links]
  · intro place _
    rw [links]
termination_by sizeOf tree
decreasing_by exact Tree.sizeOf_lt_of_mem_children (mem_children_of_mem_steps listed)

/-- The elements that are linked to nodes are as many as the nodes. Each has the tag of its node, and its parent is
linked to the parent of the node. -/
structure Mirrors (source : Document) (links : Links) (nodes : Nodes) : Prop where
  inside : ∀ index id, links.node? index = some id → index < source.size ∧ id < nodes.size
  unique : ∀ id < nodes.size, ∃! index, links.node? index = some id
  tag : ∀ index id, links.node? index = some id → source.elements[index]?.map Element.name = some (nodes.kindOf id).tag
  parent : ∀ index id, links.node? index = some id →
    (source.parent? index).map links.node? = (nodes.parent? id).map some

section Mirrors
variable {links : Links} {root : NodeId} {after : State} {tree : Tree} (formed : source.Formed)
include formed

/-- The elements that are read are linked in turn, and no others are. -/
theorem document_links (left : Left source links) (found : source.tree? = some tree)
    (ends : Ends (node limits none .schema tree) { links } root after)
    (index : Nat) (id : NodeId) :
    after.links.node? index = some id ↔ ∃ entry, (reads none .schema tree)[id]? = some entry ∧
      entry.2.index = index := by
  obtain ⟨_, holds⟩ := formed.of_tree? found
  have linked {place : Nat} {entry : Kind × Tree} (placed : (reads none .schema tree)[place]? = some entry) :
      after.links.node? entry.2.index = some place := by
    have slot := reads_linked formed holds ends left.size placed
    rw [slot]
    exact congrArg some (Nat.zero_add place)
  constructor
  · intro slot
    by_cases read : index ∈ ((reads none .schema tree).map Prod.snd).map Tree.index
    · obtain ⟨_, among, rfl⟩ := List.mem_map.mp read
      obtain ⟨entry, member, rfl⟩ := List.mem_map.mp among
      obtain ⟨place, placed⟩ := List.getElem?_of_mem member
      obtain rfl := Option.some.inj ((linked placed).symm.trans slot)
      exact ⟨entry, placed, rfl⟩
    · have kept : after.links.node? index = links.node? index := by
        rw [(node_links ends).2]
        exact linkAll_other read
      exact absurd (left.read found (kept.symm.trans slot)) read
  · intro ⟨entry, placed, same⟩
    rw [← same]
    exact linked placed

/-- The first element that is read is the root, which has no parent. All others are stitched. -/
theorem reads_mirror (left : Left source links) (found : source.tree? = some tree)
    (ends : Ends (node limits none .schema tree) { links } root after) {id : NodeId} {entry : Kind × Tree}
    (placed : (reads none .schema tree)[id]? = some entry) :
    after.nodes.kindOf id = entry.1 ∧
      (source.parent? entry.2.index).map after.links.node? = (after.nodes.parent? id).map some := by
  obtain ⟨first, holds⟩ := formed.of_tree? found
  have slot := (document_links formed left found ends entry.2.index id).mpr ⟨entry, placed, rfl⟩
  have whole := reads_hold holds (List.mem_of_getElem? placed)
  rw [reads_eq] at placed
  cases id with
  | zero =>
    obtain rfl : (Kind.schema, tree) = entry := Option.some.inj placed
    have isRead := node_isRead ends
    obtain rfl : root = 0 := isRead.first
    refine ⟨isRead.kind, ?_⟩
    rw [first, formed.order.root, Nodes.parent?, isRead.parent]
    rfl
  | succ id =>
    have member : entry ∈ (steps none .schema tree).flatMap (Step.reads .schema) := List.mem_of_getElem? placed
    obtain ⟨own, place, outer, linked, stands, above, parent⟩ := node_stitched formed holds left.size ends entry member
    obtain rfl : own = id + 1 := Option.some.inj (linked.slot.symm.trans slot)
    rw [whole.parent?, stands, parent]
    exact ⟨linked.kind, congrArg some above⟩

/-- What is read mirrors the elements. -/
theorem document_mirrors (left : Left source links) (ends : Ends (document limits source) { links } root after) :
    Mirrors source after.links after.nodes := by
  obtain ⟨tree, middle, found, named, read, nodes, links⟩ := document_ends ends
  rw [nodes, links]
  obtain ⟨_, holds⟩ := formed.of_tree? found
  have linked := document_links formed left found read
  have size : middle.nodes.size = (reads none .schema tree).length := (node_links read).1.trans (Nat.zero_add _)
  have whole {id : NodeId} {entry : Kind × Tree} (placed : (reads none .schema tree)[id]? = some entry) :
      source.Holds entry.2 := reads_hold holds (List.mem_of_getElem? placed)
  refine ⟨?_, ?_, ?_, ?_⟩
  · intro index id slot
    obtain ⟨entry, placed, rfl⟩ := (linked index id).mp slot
    exact ⟨(whole placed).inside .refl, size ▸ (List.getElem?_eq_some_iff.mp placed).1⟩
  · intro id inside
    rw [size] at inside
    have placed := List.getElem?_eq_getElem inside
    refine ⟨_, (linked _ id).mpr ⟨_, placed, rfl⟩, fun index slot => ?_⟩
    obtain ⟨entry, found, rfl⟩ := (linked index id).mp slot
    rw [Option.some.inj (found.symm.trans placed)]
  · intro index id slot
    obtain ⟨entry, placed, rfl⟩ := (linked index id).mp slot
    rw [(whole placed).found, (reads_mirror formed left found read placed).1,
      reads_tag named.symm entry (List.mem_of_getElem? placed)]
    rfl
  · intro index id slot
    obtain ⟨entry, placed, rfl⟩ := (linked index id).mp slot
    exact (reads_mirror formed left found read placed).2

end Mirrors

end Reading
end SchemaClasses
