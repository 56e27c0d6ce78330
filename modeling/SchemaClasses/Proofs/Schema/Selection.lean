import SchemaClasses.Proofs.Document.Trees
import SchemaClasses.Proofs.Grouping
import SchemaClasses.Schema.Reading
import Mathlib.Data.List.Perm.Subperm

/-! Which elements are read. Each is read as a construct of its own tag, and none is read twice. -/

namespace SchemaClasses.Reading
open List (Subperm)

section Lists

theorem filterMap_sublist {α : Type} {f : α → Option α} (same : ∀ value found, f value = some found → found = value)
    (values : List α) :
    (values.filterMap f).Sublist values := by
  induction values with
  | nil => exact .slnil
  | cons value values ih =>
    cases found : f value with
    | none =>
      rw [List.filterMap_cons_none found]
      exact ih.cons _
    | some other =>
      rw [List.filterMap_cons_some found, same value other found]
      exact ih.cons_cons _

theorem Subperm.flatMap {α β : Type} {some all : List α} (among : Subperm some all) (f : α → List β) :
    Subperm (some.flatMap f) (all.flatMap f) := by
  obtain ⟨between, same, inside⟩ := among
  exact (same.flatMap_right f).symm.subperm.trans (inside.flatMap f).subperm

theorem Subperm.nodup_map {α β : Type} {some all : List α} {f : α → β} (among : Subperm some all)
    (distinct : (all.map f).Nodup) :
    (some.map f).Nodup := by
  obtain ⟨between, same, inside⟩ := among
  exact ((inside.map f).nodup distinct).perm (same.map f)

end Lists

def Step.tree? : Step → Option Tree
  | read _ tree => some tree
  | skip _ => none

/-- The elements that are read as a construct and inside of it, in the order in which they are, each with its kind. -/
def reads (parent : Option Kind) (kind : Kind) (tree : Tree) : List (Kind × Tree) :=
  (kind, tree) :: (steps parent kind tree).attach.flatMap fun ⟨step, _⟩ =>
    match step with
    | .skip _ => []
    | .read childKind child => reads (some kind) childKind child
  termination_by sizeOf tree
  decreasing_by exact Tree.sizeOf_lt_of_mem_children (mem_children_of_mem_steps ‹_›)

def Step.reads (outer : Kind) : Step → List (Kind × Tree)
  | read kind tree => Reading.reads (some outer) kind tree
  | skip _ => []

theorem reads_eq (parent : Option Kind) (kind : Kind) (tree : Tree) :
    reads parent kind tree = (kind, tree) :: (steps parent kind tree).flatMap (Step.reads kind) := by
  rw [reads]
  congr 1
  rw [List.flatMap_subtype (g := Step.reads kind) ?_, List.unattach_attach]
  rintro (⟨_, _⟩ | _) _ <;> rfl

section Tags
variable {parent : Option Kind} {kind childKind : Kind} {tree child : Tree}

theorem tag_of_stepAmong {kinds : List Kind} {other : String → Notice}
    (step : stepAmong kinds other tree = some (.read childKind child)) : childKind.tag = child.name := by
  unfold stepAmong at step
  split at step
  · next found =>
    cases step
    have same := List.find?_some found
    exact beq_iff_eq.mp same
  · split at step <;> cases step

theorem tag_of_slot {slot : Slot} (listed : .read childKind child ∈ slot.steps tree) : childKind.tag = child.name := by
  cases slot with
  | first kind =>
    obtain ⟨found, located, same⟩ := List.mem_map.mp listed
    cases same
    have named := List.find?_some (Option.mem_toList.mp located)
    exact (beq_iff_eq.mp named).symm
  | every kind =>
    obtain ⟨found, located, same⟩ := List.mem_map.mp listed
    cases same
    exact (beq_iff_eq.mp (List.mem_filter.mp located).2).symm

theorem tag_of_steps (listed : .read childKind child ∈ steps parent kind tree) : childKind.tag = child.name := by
  unfold steps at listed
  split at listed
  case h_5 =>
    obtain ⟨slot, _, listed⟩ := List.mem_flatMap.mp listed
    exact tag_of_slot listed
  all_goals
    obtain ⟨_, _, step⟩ := List.mem_filterMap.mp listed
    exact tag_of_stepAmong step

end Tags

theorem reads_tag {parent : Option Kind} {kind : Kind} {tree : Tree} (own : kind.tag = tree.name) :
    ∀ entry ∈ reads parent kind tree, entry.1.tag = entry.2.name := by
  intro entry member
  rw [reads_eq] at member
  rcases List.mem_cons.mp member with rfl | member
  · exact own
  · obtain ⟨step, listed, member⟩ := List.mem_flatMap.mp member
    cases step with
    | skip _ => cases member
    | read childKind child => exact reads_tag (tag_of_steps listed) entry member
termination_by sizeOf tree
decreasing_by exact Tree.sizeOf_lt_of_mem_children (mem_children_of_mem_steps listed)

def Slot.kind : Slot → Kind
  | first kind => kind
  | every kind => kind

section Once

theorem slot_trees (slot : Slot) (tree : Tree) :
    ((slot.steps tree).filterMap Step.tree?).Sublist (tree.children.filter (·.name = slot.kind.tag)) := by
  have same (kind : Kind) (trees : List Tree) : (trees.map (Step.read kind)).filterMap Step.tree? = trees := by
    rw [List.filterMap_map]
    exact List.filterMap_some
  have named (tag : String) : tree.children.filter (·.name == tag) = tree.children.filter (·.name = tag) :=
    List.filter_congr fun _ _ => rfl
  cases slot with
  | first kind =>
    rw [Slot.steps, same, Tree.child?, ← List.head?_filter, named, Slot.kind]
    cases tree.children.filter (·.name = kind.tag) with
    | nil => exact .slnil
    | cons first rest => exact (List.nil_sublist rest).cons_cons first
  | every kind =>
    rw [Slot.steps, same, Tree.childrenNamed, named, Slot.kind]

theorem slots_distinct (parent : Option Kind) (kind : Kind) : ((slots parent kind).map (·.kind.tag)).Nodup := by
  by_cases complex : parent = some .complexContent
  · subst complex
    cases kind <;> decide
  · by_cases simple : parent = some .simpleContent
    · subst simple
      cases kind <;> decide
    · -- Everything else that a restriction can stand in makes no difference.
      have plain : slots parent kind = slots none kind := by cases kind <;> simp [slots, complex, simple]
      rw [plain]
      cases kind <;> decide

theorem slots_trees {placed : List Slot} (distinct : (placed.map (·.kind.tag)).Nodup) (tree : Tree) :
    Subperm ((placed.flatMap (Slot.steps tree)).filterMap Step.tree?) tree.children := by
  have each : ((placed.flatMap (Slot.steps tree)).filterMap Step.tree?).Sublist
      ((placed.map (·.kind.tag)).flatMap fun tag => tree.children.filter (·.name = tag)) := by
    rw [List.filterMap_flatMap, List.flatMap_map]
    exact List.Sublist.flatMap_right _ fun slot _ => slot_trees slot tree
  have named : ((placed.map (·.kind.tag)).flatMap fun tag => tree.children.filter (·.name = tag)) =
      (placed.map (·.kind.tag)).flatMap fun tag =>
        (tree.children.filter (·.name ∈ placed.map (·.kind.tag))).filter (·.name = tag) := by
    apply List.flatMap_congr
    intro tag member
    rw [List.filter_filter]
    apply List.filter_congr
    intro child _
    by_cases same : child.name = tag
    · subst same
      simpa using member
    · simp [same]
  have covered : ∀ child ∈ tree.children.filter (·.name ∈ placed.map (·.kind.tag)), child.name ∈
      placed.map (·.kind.tag) := by
    intro child member
    simpa using (List.mem_filter.mp member).2
  have all := flatMap_filter_perm distinct covered
  exact (each.subperm.trans (named ▸ all).subperm).trans List.filter_sublist.subperm

/-- No child is read twice. -/
theorem steps_trees (parent : Option Kind) (kind : Kind) (tree : Tree) :
    Subperm ((steps parent kind tree).filterMap Step.tree?) tree.children := by
  have among (kinds : List Kind) (other : String → Notice) :
      Subperm ((tree.children.filterMap (stepAmong kinds other)).filterMap Step.tree?) tree.children := by
    rw [List.filterMap_filterMap]
    apply List.Sublist.subperm
    apply filterMap_sublist
    intro child found same
    obtain ⟨step, made, read⟩ := Option.bind_eq_some_iff.mp same
    cases step with
    | skip _ => cases read
    | read kind tree =>
      cases read
      unfold stepAmong at made
      split at made
      · cases made
        rfl
      · split at made <;> cases made
  unfold steps
  split
  case h_5 => exact slots_trees (slots_distinct parent _) tree
  all_goals exact among _ _

theorem reads_subperm (parent : Option Kind) (kind : Kind) (tree : Tree) :
    Subperm ((reads parent kind tree).map Prod.snd) tree.parts := by
  have each : ∀ list : List Step, (∀ step ∈ list, step ∈ steps parent kind tree) →
      Subperm ((list.flatMap (Step.reads kind)).map Prod.snd) ((list.filterMap Step.tree?).flatMap Tree.parts) := by
    intro list inside
    induction list with
    | nil => exact .refl _
    | cons step list ih =>
      have rest := ih fun other member => inside other (List.mem_cons_of_mem _ member)
      have listed := inside step List.mem_cons_self
      cases step with
      | skip _ => exact rest
      | read childKind child =>
        rw [List.flatMap_cons, List.map_append]
        exact (reads_subperm (some kind) childKind child).append rest
  rw [reads_eq, List.map_cons, Tree.parts_eq, List.subperm_cons]
  exact (each _ fun _ member => member).trans (Subperm.flatMap (steps_trees parent kind tree) _)
termination_by sizeOf tree
decreasing_by exact Tree.sizeOf_lt_of_mem_children (mem_children_of_mem_steps listed)

end Once

section Document
variable {document : Document} {tree : Tree} {parent : Option Kind} {kind : Kind}

theorem reads_hold (holds : document.Holds tree) {entry : Kind × Tree} (member : entry ∈ reads parent kind tree) :
    document.Holds entry.2 :=
  holds.parts entry.2 ((reads_subperm parent kind tree).subset (List.mem_map_of_mem member))

variable (formed : document.Formed) (holds : document.Holds tree)
include formed holds

theorem reads_distinct : (((reads parent kind tree).map Prod.snd).map Tree.index).Nodup :=
  Subperm.nodup_map (reads_subperm parent kind tree) ((holds.parts_sorted formed).imp Nat.ne_of_lt)

theorem reads_within {index : Nat} (read : index ∈ ((reads parent kind tree).map Prod.snd).map Tree.index) :
    Within document.parent? tree.index index :=
  (holds.mem_parts formed index).mp (List.map_subset _ (reads_subperm parent kind tree).subset read)

end Document

end SchemaClasses.Reading
