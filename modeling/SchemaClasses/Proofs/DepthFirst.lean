import Mathlib.Data.List.Chain
import Mathlib.Data.Nat.Find
import Mathlib.Logic.Relation

/-! Numbers that are given depth first. What is inside of something has the numbers that follow next. -/

namespace SchemaClasses

/-- Something, or what it stands in, stands in the outer one. -/
def Within (parent? : Nat → Option Nat) (outer inner : Nat) : Prop :=
  Relation.ReflTransGen (fun child parent => parent? child = some parent) inner outer

namespace Within
variable {parent? : Nat → Option Nat} {outer middle inner : Nat}

theorem refl : Within parent? inner inner :=
  Relation.ReflTransGen.refl

theorem parent {parent : Nat} (stands : parent? inner = some parent) : Within parent? parent inner :=
  Relation.ReflTransGen.single stands

theorem trans (first : Within parent? outer middle) (last : Within parent? middle inner) : Within parent? outer inner :=
  Relation.ReflTransGen.trans last first

theorem eq_or_parent (within : Within parent? outer inner) :
    outer = inner ∨ ∃ parent, parent? inner = some parent ∧ Within parent? outer parent := by
  rcases Relation.ReflTransGen.cases_head within with same | ⟨parent, stands, above⟩
  · exact Or.inl same.symm
  · exact Or.inr ⟨parent, stands, above⟩

theorem mono {later : Nat → Option Nat}
    (keeps : ∀ child parent, parent? child = some parent → later child = some parent)
    (within : Within parent? outer inner) : Within later outer inner :=
  Relation.ReflTransGen.mono keeps _ _ within

theorem of_chain {opened : List Nat}
    (chain : (inner :: opened).IsChain fun child parent => parent? child = some parent) :
    ∀ outer ∈ inner :: opened, Within parent? outer inner := by
  induction opened generalizing inner with
  | nil =>
    intro outer member
    rw [List.mem_singleton.mp member]
    exact .refl
  | cons parent opened ih =>
    obtain ⟨stands, chain⟩ := List.isChain_cons_cons.mp chain
    intro outer member
    rcases List.mem_cons.mp member with rfl | member
    · exact .refl
    · exact (ih chain outer member).trans (.parent stands)

end Within

/-- The first has no parent, all others come after theirs, and whatever comes next stands in the last or in something
that the last stands in. -/
structure DepthFirst (parent? : Nat → Option Nat) (size : Nat) : Prop where
  root : parent? 0 = none
  inside : ∀ child parent, parent? child = some parent → child < size
  after : ∀ child parent, parent? child = some parent → parent < child
  stands : ∀ child, 0 < child → child < size → ∃ parent, parent? child = some parent
  next : ∀ last parent, parent? (last + 1) = some parent → Within parent? parent last

namespace DepthFirst
variable {parent? : Nat → Option Nat} {size outer middle inner : Nat} (ordered : DepthFirst parent? size)
include ordered

theorem le (within : Within parent? outer inner) : outer ≤ inner := by
  induction within with
  | refl => exact Nat.le_refl _
  | tail _ stands ih => exact Nat.le_trans (Nat.le_of_lt (ordered.after _ _ stands)) ih

theorem within_root (inside : inner < size) : Within parent? 0 inner := by
  induction inner using Nat.strongRecOn with
  | ind inner ih =>
    rcases Nat.eq_zero_or_pos inner with rfl | later
    · exact .refl
    · obtain ⟨parent, stands⟩ := ordered.stands inner later inside
      have earlier := ordered.after inner parent stands
      exact (ih parent earlier (Nat.lt_trans earlier inside)).trans (.parent stands)

/-- What comes between something and a number inside of it is inside of it as well. -/
theorem between (within : Within parent? outer inner) (after : outer ≤ middle) (before : middle ≤ inner) :
    Within parent? outer middle := by
  induction inner with
  | zero =>
    obtain rfl := Nat.le_zero.mp before
    exact within
  | succ inner ih =>
    rcases Nat.lt_or_ge inner middle with last | earlier
    · obtain rfl := Nat.le_antisymm before last
      exact within
    · obtain rfl | ⟨parent, stands, above⟩ := within.eq_or_parent
      · exact absurd (Nat.le_trans after earlier) (Nat.not_succ_le_self inner)
      · exact ih (above.trans (ordered.next inner parent stands)) earlier

/-- What is inside of something has the numbers from its own up to some other. -/
theorem interval (outer : Nat) : ∃ stop, ∀ inner < size, Within parent? outer inner ↔ outer ≤ inner ∧ inner < stop := by
  classical
  by_cases ends : ∃ stop, outer ≤ stop ∧ ¬Within parent? outer stop
  · obtain ⟨after, outside⟩ := Nat.find_spec ends
    refine ⟨Nat.find ends, fun inner inside => ⟨fun within => ⟨ordered.le within, ?_⟩, fun ⟨behind, earlier⟩ => ?_⟩⟩
    · exact Nat.lt_of_not_le fun beyond => outside (ordered.between within after beyond)
    · exact not_not.mp fun without => Nat.find_min ends earlier ⟨behind, without⟩
  · refine ⟨size, fun inner inside => ⟨fun within => ⟨ordered.le within, inside⟩, fun ⟨behind, _⟩ => ?_⟩⟩
    exact not_not.mp fun without => ends ⟨inner, behind, without⟩

theorem apart {parent first second : Nat} (one : parent? first = some parent) (two : parent? second = some parent)
    (earlier : first < second) : ¬Within parent? first second := by
  intro within
  obtain rfl | ⟨other, stands, above⟩ := within.eq_or_parent
  · exact Nat.lt_irrefl _ earlier
  · obtain rfl := Option.some.inj (two.symm.trans stands)
    exact Nat.not_lt.mpr (ordered.le above) (ordered.after _ _ one)

theorem same {parent first second : Nat} (one : parent? first = some parent) (two : parent? second = some parent)
    (inside : Within parent? first inner) (within : Within parent? second inner) : first = second := by
  rcases Nat.lt_trichotomy first second with earlier | same | later
  · exact absurd (ordered.between inside (Nat.le_of_lt earlier) (ordered.le within)) (ordered.apart one two earlier)
  · exact same
  · exact absurd (ordered.between within (Nat.le_of_lt later) (ordered.le inside)) (ordered.apart two one later)

end DepthFirst

end SchemaClasses
