import Mathlib
import SchemaClasses.Proofs.DepthFirst
import SchemaClasses.Proofs.Graph.Order
import SchemaClasses.Proofs.Graph.Reading

/-! The order of a graph that was added to in any way. It has the tree of the first object without a parent, each object
once and behind all that stands below it, and what was added to an object earlier comes earlier. -/

namespace SchemaClasses

namespace Within
variable {parent? : Nat → Option Nat} {first second inner : Nat}

theorem total (one : Within parent? first inner) (two : Within parent? second inner) :
    Within parent? first second ∨ Within parent? second first := by
  have single : Relator.RightUnique fun child parent => parent? child = some parent :=
    fun _ _ _ stands other => Option.some.inj (stands.symm.trans other)
  exact (Relation.ReflTransGen.total_of_right_unique single one two).symm

/-- What has the same parent as something stands in the same things, but for itself. -/
theorem sibling (within : Within parent? first inner) (same : parent? inner = parent? second) :
    inner = first ∨ Within parent? first second := by
  obtain own | ⟨parent, stands, above⟩ := within.eq_or_parent
  · exact Or.inl own.symm
  · exact Or.inr (above.trans (.parent (same.symm.trans stands)))

end Within

namespace Graph

def parent? (graph : Graph) (id : ObjectId) : Option ObjectId :=
  graph.get? id >>= Object.parent

theorem ordered_nothing : Object.Ordered #[] := by
  intro id object found
  simp at found

def nothing : Graph :=
  ⟨#[], ordered_nothing⟩

/-- Graphs made by adding objects, each under one that is there or under none, and by changes of objects that leave them
where they are. -/
inductive Grown : Graph → Prop where
  | nothing : Grown nothing
  | add {graph parent} (grown : Grown graph) (there : ∀ id, parent = some id → id < graph.size) (tagName : String)
      (content : Option String) (attributes : Entries String) : Grown (graph.add parent tagName content attributes).2
  | edit {graph} (grown : Grown graph) (id : ObjectId) (change : Object → Object)
      (children : ∀ object, (change object).children = object.children)
        (parent : ∀ object, (change object).parent = object.parent) :
      Grown (graph.modify id change children)

/-- Every object lists those that it is the parent of, in the order in which they were added. -/
def Linked (graph : Graph) : Prop :=
  ∀ id, graph.children id = (List.range graph.size).filter fun child => graph.parent? child = some id

/-- Nothing comes behind what it stands in, and siblings come in the order in which they were added. -/
def Sorted (graph : Graph) (order : List ObjectId) : Prop :=
  order.Pairwise fun first second => ¬Within graph.parent? first second ∧
    (graph.parent? first = graph.parent? second → first < second)

section Changes
variable {graph : Graph} {id other : ObjectId} {parent : Option ObjectId}

theorem children_eq : graph.children id = ((graph.get? id).map fun object => object.children.toList).getD [] := by
  rw [children]
  cases graph.get? id <;> rfl

theorem get?_outside (outside : graph.size ≤ id) : graph.get? id = none :=
  Array.getElem?_eq_none outside

/-- Where there is an entry for each object and for nothing else, there are as many. -/
theorem size_eq {α : Type} {entries : Array α} (same : ∀ id : Nat, (graph.get? id).isSome = entries[id]?.isSome) :
    graph.size = entries.size := by
  have inside (id : Nat) : id < graph.size ↔ id < entries.size := by
    have both := same id
    rwa [get?, Bool.eq_iff_iff, isSome_getElem?, isSome_getElem?] at both
  exact Nat.le_antisymm (Nat.le_of_not_lt fun less => Nat.lt_irrefl _ ((inside _).mp less))
    (Nat.le_of_not_lt fun less => Nat.lt_irrefl _ ((inside _).mpr less))

theorem lt_of_parent? {parent : ObjectId} (stands : graph.parent? id = some parent) : id < graph.size := by
  by_contra outside
  rw [parent?, get?_outside (Nat.le_of_not_lt outside)] at stands
  cases stands

section Add
variable {tagName : String} {content : Option String} {attributes : Entries String}

theorem parent?_add (there : ∀ id, parent = some id → id < graph.size) :
    (graph.add parent tagName content attributes).2.parent? id = if id =
      graph.size then parent else graph.parent? id := by
  rw [parent?, get?_add]
  split
  · rfl
  · cases parent with
    | none => rfl
    | some parent =>
      rw [get?_adopt_some (there parent rfl), parent?]
      cases graph.get? id with
      | none => rfl
      | some object =>
        simp only [Option.map_some, Option.bind_eq_bind, Option.bind_some]
        split <;> rfl

theorem children_add (there : ∀ id, parent = some id → id < graph.size) :
    (graph.add parent tagName content attributes).2.children id =
      graph.children id ++ if parent = some id then [graph.size] else [] := by
  rw [children_eq, children_eq, get?_add]
  split
  · next last =>
    have other : parent ≠ some id := fun same => Nat.ne_of_lt (there id same) last
    rw [if_neg other, get?_outside (Nat.le_of_eq last.symm)]
    rfl
  · cases parent with
    | none => simp [get?_adopt_none]
    | some parent =>
      rw [get?_adopt_some (there parent rfl), Option.map_map]
      by_cases same : id = parent
      · subst same
        rw [get?, Array.getElem?_eq_getElem (there id rfl)]
        simp
      · simp [same, Ne.symm same, Function.comp_def]

end Add

section Edit
variable {change : Object → Object} (children : ∀ object, (change object).children = object.children)

theorem get?_modify : (graph.modify id change children).get? other =
    (graph.get? other).map fun object => if other = id then change object else object := by
  rw [modify, get?, Array.getElem?_modify]
  split
  · next same => simp [same, get?]
  · next different => simp [Ne.symm different, get?]

theorem size_modify : (graph.modify id change children).size = graph.size :=
  Array.size_modify

end Edit

end Changes

variable {graph : Graph} {id other : ObjectId}

namespace Linked
variable {first second parent : ObjectId} (linked : graph.Linked)

theorem nothing : Linked nothing := fun _ => rfl

include linked

theorem add {outer : Option ObjectId} (there : ∀ id, outer = some id → id < graph.size) (tagName : String)
    (content : Option String) (attributes : Entries String) :
    (graph.add outer tagName content attributes).2.Linked := by
  intro id
  have old : (List.range graph.size).filter
    (fun child => (graph.add outer tagName content attributes).2.parent? child = some id) =
      graph.children id := by
    rw [linked]
    apply List.filter_congr
    intro child member
    rw [parent?_add there, if_neg (Nat.ne_of_lt (List.mem_range.mp member))]
  rw [children_add there, size_add, List.range_succ, List.filter_append, old]
  simp [List.filter_cons, parent?_add there]

theorem edit (id : ObjectId) {change : Object → Object}
    (children : ∀ object, (change object).children = object.children)
    (parent : ∀ object, (change object).parent = object.parent) : (graph.modify id change children).Linked := by
  have same (other : ObjectId) : (graph.modify id change children).parent? other = graph.parent? other := by
    rw [parent?, get?_modify, parent?]
    cases graph.get? other with
    | none => rfl
    | some object =>
      simp only [Option.map_some, Option.bind_eq_bind, Option.bind_some]
      split
      · exact parent object
      · rfl
  have below (other : ObjectId) : (graph.modify id change children).children other = graph.children other := by
    rw [children_eq, get?_modify, children_eq]
    cases graph.get? other with
    | none => rfl
    | some object =>
      simp only [Option.map_some, Option.getD_some]
      split
      · rw [children]
      · rfl
  intro other
  rw [below, linked, size_modify]
  simp only [same]

theorem mem_children {child : ObjectId} : child ∈ graph.children parent ↔ graph.parent? child = some parent := by
  rw [linked, List.mem_filter, List.mem_range, decide_eq_true_eq, and_iff_right_iff_imp]
  exact lt_of_parent?

theorem parent_lt {child : ObjectId} (stands : graph.parent? child = some parent) : parent < child :=
  lt_of_mem_children (linked.mem_children.mpr stands)

theorem le {outer inner : ObjectId} (within : Within graph.parent? outer inner) : outer ≤ inner := by
  induction within with
  | refl => exact Nat.le_refl _
  | tail _ stands ih => exact Nat.le_trans (Nat.le_of_lt (linked.parent_lt stands)) ih

theorem apart {inner : ObjectId} (one : graph.parent? first = some parent) (two : graph.parent? second = some parent)
    (inside : Within graph.parent? first inner) (within : Within graph.parent? second inner) : first = second := by
  have top {outer lower : ObjectId} (above : graph.parent? outer = some parent)
    (below : graph.parent? lower = some parent)
      (within : Within graph.parent? outer lower) : outer = lower := by
    obtain same | ⟨middle, stands, within⟩ := within.eq_or_parent
    · exact same
    · obtain rfl := Option.some.inj (below.symm.trans stands)
      exact absurd (linked.le within) (Nat.not_le.mpr (linked.parent_lt above))
  rcases inside.total within with within | within
  · exact top one two within
  · exact (top two one within).symm

/-- A tree has what stands in its object, and nothing else. -/
theorem mem_treeOrder (id other : ObjectId) : other ∈ graph.treeOrder id ↔ Within graph.parent? id other := by
  rw [treeOrder_eq, List.mem_append, List.mem_flatMap, List.mem_singleton]
  constructor
  · rintro (⟨child, member, inside⟩ | rfl)
    · exact (Within.parent (linked.mem_children.mp member)).trans ((mem_treeOrder child other).mp inside)
    · exact .refl
  · intro within
    rcases Relation.ReflTransGen.cases_tail within with same | ⟨child, within, stands⟩
    · exact Or.inr same.symm
    · have member := linked.mem_children.mpr stands
      exact Or.inl ⟨child, member, (mem_treeOrder child other).mpr within⟩
termination_by graph.size - id
decreasing_by
  all_goals exact Nat.sub_lt_sub_left (lt_size_of_mem_children member) (lt_of_mem_children member)

theorem sorted_treeOrder (id : ObjectId) : graph.Sorted (graph.treeOrder id) := by
  rw [Sorted, treeOrder_eq, List.pairwise_append, List.pairwise_flatMap]
  refine ⟨⟨fun child member => sorted_treeOrder child, ?_⟩, List.pairwise_singleton _ _, ?_⟩
  · have increasing : (graph.children id).Pairwise (· < ·) := by
      rw [linked]
      exact List.pairwise_lt_range.filter _
    refine increasing.imp_of_mem fun {one two} first second earlier left inside right within => ?_
    have stands := linked.mem_children.mp first
    have beside := linked.mem_children.mp second
    have inside := (linked.mem_treeOrder one left).mp inside
    have within := (linked.mem_treeOrder two right).mp within
    have disjoint {inner : ObjectId} (one : Within graph.parent? one inner) : ¬Within graph.parent? two inner :=
      fun two => Nat.ne_of_lt earlier (linked.apart stands beside one two)
    refine ⟨fun above => disjoint (inside.trans above) within, fun same => ?_⟩
    -- Where one of the two is not the child itself, both stand in the same child.
    obtain rfl := (inside.sibling same).resolve_right fun other => disjoint other within
    obtain rfl := (within.sibling same.symm).resolve_right (disjoint inside)
    exact earlier
  · intro inner member outer last
    obtain rfl := List.mem_singleton.mp last
    obtain ⟨child, member, inside⟩ := List.mem_flatMap.mp member
    have stands := linked.mem_children.mp member
    have inside := (linked.mem_treeOrder child inner).mp inside
    have outside : ¬Within graph.parent? child outer :=
      fun within => Nat.not_lt.mpr (linked.le within) (linked.parent_lt stands)
    refine ⟨fun above => outside (inside.trans above), fun same => ?_⟩
    obtain rfl := (inside.sibling same).resolve_right outside
    exact absurd (linked.parent_lt (same.symm.trans stands)) (Nat.lt_irrefl _)
termination_by graph.size - id
decreasing_by
  exact Nat.sub_lt_sub_left (lt_size_of_mem_children member) (lt_of_mem_children member)

end Linked

theorem Grown.linked (grown : graph.Grown) : graph.Linked := by
  induction grown with
  | nothing => exact .nothing
  | add _ there tagName content attributes ih => exact ih.add there tagName content attributes
  | edit _ id _ children parent ih => exact ih.edit id children parent

/-- The root is the first object without a parent. -/
theorem root?_eq_some_iff {root : ObjectId} : graph.root? = some root ↔
    root < graph.size ∧ graph.parent? root = none ∧ ∀ earlier < root, graph.parent? earlier ≠ none := by
  have stored (id : ObjectId) (inside : id < graph.size) : graph.parent? id = graph.objects[id].parent := by
    rw [parent?, get?, Array.getElem?_eq_getElem inside]
    rfl
  rw [root?, Array.findIdx?_eq_some_iff_getElem]
  constructor
  · rintro ⟨inside, top, before⟩
    refine ⟨inside, ?_, fun earlier less => ?_⟩
    · rw [stored root inside]
      exact Option.isNone_iff_eq_none.mp top
    · rw [stored earlier (Nat.lt_trans less inside)]
      exact fun none => before earlier less (Option.isNone_iff_eq_none.mpr none)
  · rintro ⟨inside, top, before⟩
    refine ⟨inside, ?_, fun earlier less => ?_⟩
    · rw [stored root inside] at top
      exact Option.isNone_iff_eq_none.mpr top
    · have nested := before earlier less
      rw [stored earlier (Nat.lt_trans less inside)] at nested
      exact fun none => nested (Option.isNone_iff_eq_none.mp none)

theorem Linked.root (linked : graph.Linked) (filled : 0 < graph.size) : graph.root? = some 0 := by
  refine root?_eq_some_iff.mpr ⟨filled, ?_, fun earlier less => absurd less (Nat.not_lt_zero earlier)⟩
  rw [Option.eq_none_iff_forall_ne_some]
  exact fun parent stands => Nat.not_lt_zero parent (linked.parent_lt stands)

theorem Linked.postOrder_lt (linked : graph.Linked) : ∀ id ∈ graph.postOrder, id < graph.size := by
  intro id member
  cases first : graph.root? with
  | none =>
    rw [postOrder, first] at member
    cases member
  | some root =>
    rw [postOrder_eq first, linked.mem_treeOrder] at member
    obtain rfl | ⟨parent, stands, _⟩ := member.eq_or_parent
    · exact (root?_eq_some_iff.mp first).1
    · exact lt_of_parent? stands

theorem Sorted.nodup {order : List ObjectId} (sorted : graph.Sorted order) : order.Nodup :=
  sorted.imp fun {first second} apart (same : first = second) => apart.1 (same ▸ .refl)

/-- The order of a graph is that of the tree of the first object without a parent: the orders of the children
and then the object. It has each object of this tree once and no other, objects behind all that stands below
them, and siblings as they were added. -/
theorem postOrder_tree (grown : graph.Grown) :
    (∀ id, graph.treeOrder id = (graph.children id).flatMap graph.treeOrder ++ [id]) ∧
    (graph.size = 0 → graph.postOrder = []) ∧
    (0 < graph.size → ∃ root, root < graph.size ∧ graph.parent? root = none ∧
      (∀ earlier < root, graph.parent? earlier ≠ none) ∧
      graph.postOrder = graph.treeOrder root ∧ graph.postOrder.Nodup ∧
      (∀ id, id ∈ graph.postOrder ↔ Within graph.parent? root id) ∧ graph.Sorted graph.postOrder) := by
  have linked := grown.linked
  refine ⟨treeOrder_eq graph, fun empty => ?_, fun filled => ?_⟩
  · have none : graph.root? = none := by
      rw [Option.eq_none_iff_forall_ne_some]
      intro root first
      exact Nat.not_lt_zero root (empty ▸ (root?_eq_some_iff.mp first).1)
    rw [postOrder, none]
  · have first := linked.root filled
    obtain ⟨inside, top, before⟩ := root?_eq_some_iff.mp first
    have sorted := linked.sorted_treeOrder 0
    rw [postOrder_eq first]
    exact ⟨0, inside, top, before, rfl, sorted.nodup, linked.mem_treeOrder 0, sorted⟩

/-- Two trees that grow by turns. -/
def forest : Graph :=
  let under (graph : Graph) (parent : Option ObjectId) (tagName : String) : Graph := (graph.add parent tagName).2
  under (under (under (under (under (under nothing none "a") (some 0) "b") none "x") (some 1) "c") (some 0) "d")
    (some 2) "y"

theorem forest_grown : forest.Grown := by
  have under {graph : Graph} (grown : graph.Grown) {parent : ObjectId} (there : parent < graph.size)
    (tagName : String) :
      (graph.add (some parent) tagName).2.Grown :=
    grown.add (fun id same => Option.some.inj same ▸ there) tagName none []
  have top {graph : Graph} (grown : graph.Grown) (tagName : String) : (graph.add none tagName).2.Grown :=
    grown.add (fun id same => by cases same) tagName none []
  have first := under (top .nothing "a") (by decide : 0 < 1) "b"
  have second := under (under (top first "x") (by decide : 1 < 3) "c") (by decide : 0 < 4) "d"
  exact under second (by decide : 2 < 5) "y"

theorem postOrder_forest : forest.Grown ∧ forest.postOrder = [3, 1, 4, 0] ∧ 0 < forest.size ∧
    ∃ root, root < forest.size ∧ forest.parent? root = none ∧ (∀ earlier < root, forest.parent? earlier ≠ none) ∧
      forest.postOrder = forest.treeOrder root ∧ forest.postOrder.Nodup ∧
      (∀ id, id ∈ forest.postOrder ↔ Within forest.parent? root id) ∧ forest.Sorted forest.postOrder :=
  ⟨forest_grown, by cbv, by decide, (postOrder_tree forest_grown).2.2 (by decide)⟩

end Graph
end SchemaClasses
