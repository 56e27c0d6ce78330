import SchemaClasses.Document.Tree
import SchemaClasses.Proofs.Document.Formed
import Mathlib.Data.List.Flatten
import Mathlib.Data.List.Sort

/-! The tree of a document. It has every element once, in the order of the document. -/

namespace SchemaClasses

namespace Tree

def parts (tree : Tree) : List Tree :=
  (tree.listFrom 0).map Prod.snd

private theorem listFrom_eq (depth : Nat) (tree : Tree) :
    tree.listFrom depth = (depth, tree) :: tree.children.flatMap (listFrom (depth + 1)) := by
  have all (trees : List Tree) : listAllFrom (depth + 1) trees = trees.flatMap (listFrom (depth + 1)) := by
    induction trees with
    | nil => rfl
    | cons tree trees ih => rw [listAllFrom, ih, List.flatMap_cons]
  cases tree with
  | node index element children => rw [listFrom, all, Tree.children]

private theorem listFrom_snd (first second : Nat) (tree : Tree) :
    (tree.listFrom first).map Prod.snd = (tree.listFrom second).map Prod.snd := by
  rw [listFrom_eq, listFrom_eq, List.map_cons, List.map_cons, List.map_flatMap, List.map_flatMap,
    List.flatMap_congr fun child member => listFrom_snd (first + 1) (second + 1) child]
termination_by sizeOf tree
decreasing_by exact sizeOf_lt_of_mem_children member

theorem parts_eq (tree : Tree) : tree.parts = tree :: tree.children.flatMap parts := by
  rw [parts, listFrom_eq, List.map_cons, List.map_flatMap, List.flatMap_congr fun child _ => listFrom_snd 1 0 child]
  rfl

end Tree

namespace Document
variable {document : Document} {index : Nat}

/-- A tree of elements of a document, each with all its children. -/
inductive Holds (document : Document) : Tree → Prop where
  | node {index element children} (found : document.elements[index]? = some element)
      (listed : children.map Tree.index = element.children.toList) (below : ∀ child ∈ children, Holds document child) :
      Holds document (.node index element children)

section Backward

theorem treesBackward_size (count : Nat) : (document.treesBackward count).size = count := by
  induction count with
  | zero => rfl
  | succ count ih => rw [treesBackward, Array.size_push, ih]

theorem treesBackward_keeps {place first second : Nat} (made : place < first) (more : first ≤ second) :
    (document.treesBackward second)[place]? = (document.treesBackward first)[place]? := by
  induction second, more using Nat.le_induction with
  | base => rfl
  | succ second more ih =>
    rw [treesBackward, Array.getElem?_push, treesBackward_size, if_neg (Nat.ne_of_lt (Nat.lt_of_lt_of_le made more)),
      ih]

theorem treeAt?_eq {element : Element} (found : document.elements[index]? = some element)
    (behind : ∀ child ∈ element.children.toList, index < child ∧ child < document.size) :
    document.treeAt? index = some (.node index element (element.children.toList.filterMap document.treeAt?)) := by
  have inside : index < document.size := (Array.getElem?_eq_some_iff.mp found).1
  obtain ⟨count, total⟩ : ∃ count, document.size = index + (count + 1) := Nat.exists_eq_add_of_lt inside
  have later (child : Nat) (member : child ∈ element.children.toList) :
      (document.treesBackward count)[document.size - 1 - child]? = document.treeAt? child := by
    obtain ⟨after, within⟩ := behind child member
    have kept : (document.treesBackward document.size)[document.size - 1 - child]? =
        (document.treesBackward count)[document.size - 1 - child]? := treesBackward_keeps (by omega) (by omega)
    rw [treeAt?, if_pos within, kept]
  have place : document.size - 1 - index = count := by omega
  have number : document.size - (count + 1) = index := by omega
  have own : document.elements.getD index default = element := by
    rw [Array.getD_eq_getD_getElem?, found]
    rfl
  rw [treeAt?, if_pos inside, place, treesBackward_keeps (Nat.lt_succ_self count) (by omega), treesBackward,
    Array.getElem?_push, treesBackward_size, if_pos rfl, number, own, List.filterMap_congr later]

end Backward

private theorem map_index {made : Nat → Option Tree} {ids : List Nat}
    (each : ∀ id ∈ ids, ∃ tree, made id = some tree ∧ tree.index = id) : (ids.filterMap made).map Tree.index = ids := by
  induction ids with
  | nil => rfl
  | cons id ids ih =>
    obtain ⟨tree, found, same⟩ := each id List.mem_cons_self
    rw [List.filterMap_cons_some found, List.map_cons, same, ih fun other member =>
      each other (List.mem_cons_of_mem _ member)]

section Formed
variable (formed : document.Formed)
include formed

theorem Formed.children_eq {element : Element} (found : document.elements[index]? = some element) :
    element.children.toList = (List.range document.size).filter fun child => document.parent? child = some index := by
  rw [← formed.children, childrenOf_eq found]

theorem Formed.mem_children {element : Element} (found : document.elements[index]? = some element) {child : Nat} :
    child ∈ element.children.toList ↔ document.parent? child = some index := by
  rw [formed.children_eq found]
  simp only [List.mem_filter, List.mem_range, decide_eq_true_eq, and_iff_right_iff_imp]
  exact lt_of_parent?

theorem Formed.children_sorted {element : Element} (found : document.elements[index]? = some element) :
    element.children.toList.Pairwise (· < ·) := by
  rw [formed.children_eq found]
  exact List.pairwise_lt_range.filter _

theorem Formed.treeAt {index : Nat} {element : Element} (found : document.elements[index]? = some element) :
    ∃ children, document.treeAt? index = some (.node index element children) ∧
      document.Holds (.node index element children) := by
  have behind : ∀ child ∈ element.children.toList, index < child ∧ child < document.size := by
    intro child member
    have stands := (formed.mem_children found).mp member
    exact ⟨formed.order.after child index stands, lt_of_parent? stands⟩
  have made : ∀ child ∈ element.children.toList, ∃ tree, document.treeAt? child = some tree ∧ tree.index = child ∧
      document.Holds tree := by
    intro child member
    obtain ⟨_, within⟩ := behind child member
    obtain ⟨children, made, holds⟩ := Formed.treeAt (Array.getElem?_eq_getElem within)
    exact ⟨_, made, rfl, holds⟩
  refine ⟨_, treeAt?_eq found behind, .node found (map_index fun child member => ?_) ?_⟩
  · obtain ⟨tree, made, same, _⟩ := made child member
    exact ⟨tree, made, same⟩
  · intro tree member
    obtain ⟨child, listed, found⟩ := List.mem_filterMap.mp member
    obtain ⟨_, made, _, holds⟩ := made child listed
    obtain rfl := Option.some.inj (made.symm.trans found)
    exact holds
termination_by document.size - index
decreasing_by omega

end Formed

namespace Holds
variable {tree : Tree}

theorem found (holds : document.Holds tree) : document.elements[tree.index]? = some tree.element := by
  cases holds
  assumption

theorem parent? (holds : document.Holds tree) : document.parent? tree.index = tree.element.parent := by
  rw [Document.parent?, holds.found]
  rfl

theorem parts (holds : document.Holds tree) : ∀ part ∈ tree.parts, document.Holds part := by
  induction holds with
  | @node index element children found listed below ih =>
    intro part member
    rw [Tree.parts_eq] at member
    rcases List.mem_cons.mp member with rfl | member
    · exact .node found listed below
    · obtain ⟨child, inside, member⟩ := List.mem_flatMap.mp member
      exact ih child inside part member

theorem inside {other : Nat} (holds : document.Holds tree) (within : Within document.parent? tree.index other) :
    other < document.size := by
  rcases within.eq_or_parent with rfl | ⟨_, stands, _⟩
  · exact (Array.getElem?_eq_some_iff.mp holds.found).1
  · exact lt_of_parent? stands

variable (formed : document.Formed)
include formed

theorem mem_parts (holds : document.Holds tree) (other : Nat) :
    other ∈ tree.parts.map Tree.index ↔ Within document.parent? tree.index other := by
  induction holds with
  | @node index element children found listed below ih =>
    rw [Tree.parts_eq, List.map_cons, List.map_flatMap, List.mem_cons, List.mem_flatMap]
    constructor
    · intro inside
      rcases inside with rfl | ⟨child, member, inside⟩
      · exact .refl
      · have stands := (formed.mem_children found).mp (listed ▸ List.mem_map_of_mem member)
        exact (Within.parent stands).trans ((ih child member).mp inside)
    · intro within
      rcases Relation.ReflTransGen.cases_tail within with same | ⟨inner, within, stands⟩
      · exact Or.inl same.symm
      · have among := (formed.mem_children found).mpr stands
        rw [← listed] at among
        obtain ⟨child, member, rfl⟩ := List.mem_map.mp among
        exact Or.inr ⟨child, member, (ih child member).mpr within⟩

theorem parts_sorted (holds : document.Holds tree) : (tree.parts.map Tree.index).Pairwise (· < ·) := by
  induction holds with
  | @node index element children found listed below ih =>
    have stands {child : Tree} (member : child ∈ children) : document.parent? child.index = some index :=
      (formed.mem_children found).mp (listed ▸ List.mem_map_of_mem member)
    rw [Tree.parts_eq, List.map_cons, List.map_flatMap, List.pairwise_cons, List.pairwise_flatMap]
    refine ⟨fun other inside => ?_, ih, ?_⟩
    · obtain ⟨child, member, inside⟩ := List.mem_flatMap.mp inside
      have within := (mem_parts formed (below child member) other).mp inside
      exact Nat.lt_of_lt_of_le (formed.order.after _ _ (stands member)) (formed.order.le within)
    · have sorted : children.Pairwise fun first second => first.index < second.index := by
        rw [← List.pairwise_map, listed]
        exact formed.children_sorted found
      refine sorted.imp_of_mem fun one two earlier first inside second within => ?_
      have inside := (mem_parts formed (below _ one) first).mp inside
      have within := (mem_parts formed (below _ two) second).mp within
      apply Nat.lt_of_not_le
      intro behind
      have before := Nat.le_trans (formed.order.le within) behind
      exact formed.order.apart (stands one) (stands two) earlier
        (formed.order.between inside (Nat.le_of_lt earlier) before)

theorem root_parent (holds : document.Holds tree) (root : tree.index = 0) : tree.element.parent = none := by
  rw [← holds.parent?, root]
  exact formed.order.root

theorem parts_range (holds : document.Holds tree) :
    tree.parts.map Tree.index = List.range' tree.index tree.parts.length := by
  obtain ⟨stop, interval⟩ := formed.order.interval tree.index
  have same : tree.parts.map Tree.index = List.range' tree.index (min stop document.size - tree.index) := by
    apply (parts_sorted formed holds).eq_of_mem_iff List.pairwise_lt_range'
    intro other
    rw [mem_parts formed holds, List.mem_range'_1]
    constructor
    · intro within
      have inside := holds.inside within
      obtain ⟨behind, before⟩ := (interval other inside).mp within
      omega
    · intro ⟨behind, before⟩
      exact (interval other (by omega)).mpr ⟨behind, by omega⟩
  have length := congrArg List.length same
  rw [List.length_map, List.length_range'] at length
  rw [same, length]

theorem parts_root (holds : document.Holds tree) (root : tree.index = 0) :
    tree.parts.map Tree.index = List.range document.size := by
  apply (parts_sorted formed holds).eq_of_mem_iff List.pairwise_lt_range
  intro other
  rw [mem_parts formed holds, List.mem_range]
  exact ⟨holds.inside, fun within => root ▸ formed.order.within_root within⟩

theorem elements_root (holds : document.Holds tree) (root : tree.index = 0) :
    tree.parts.map Tree.element = document.elements.toList := by
  have each : tree.parts.map (some ∘ Tree.element) = tree.parts.map ((document.elements[·]?) ∘ Tree.index) := by
    apply List.map_congr_left
    intro part member
    exact (holds.parts part member).found.symm
  have all : (List.range document.size).map (document.elements[·]?) = document.elements.toList.map some := by
    apply List.ext_getElem (by simp [size])
    intro index inside within
    simp
  rw [← List.map_map, ← List.map_map, parts_root formed holds root, all] at each
  exact List.map_injective_iff.mpr (Option.some_injective _) each

end Holds

/-- A document without elements has no tree; any other has one tree of all its elements. -/
theorem Formed.tree (formed : document.Formed) (filled : 0 < document.size) :
    ∃ tree, document.tree? = some tree ∧ tree.index = 0 ∧ document.Holds tree := by
  obtain ⟨children, made, holds⟩ := formed.treeAt (Array.getElem?_eq_getElem filled)
  refine ⟨_, ?_, rfl, holds⟩
  rw [tree?, formed.root, if_neg (Nat.ne_of_gt filled)]
  exact made

theorem Formed.of_tree? {tree : Tree} (formed : document.Formed) (found : document.tree? = some tree) :
    tree.index = 0 ∧ document.Holds tree := by
  rcases Nat.eq_zero_or_pos document.size with empty | filled
  · rw [tree?, formed.root, if_pos empty] at found
    cases found
  · obtain ⟨_, made, root, holds⟩ := formed.tree filled
    obtain rfl := Option.some.inj (made.symm.trans found)
    exact ⟨root, holds⟩

end Document
end SchemaClasses
