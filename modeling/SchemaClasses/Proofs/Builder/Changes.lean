import Mathlib
import SchemaClasses.Builder.Basic

/-! What each change of a store does to its builders and their rules, as long as every builder has a bag
of its own. -/

namespace SchemaClasses.Builders
variable {builders : Builders} {id other : BuilderId}

/-- Each builder has the bag of its own number. -/
structure Tidy (builders : Builders) : Prop where
  bags : builders.bags.size = builders.size
  own : ∀ id < builders.size, (builders.get id).bag = id

theorem Tidy.empty : Tidy {} := ⟨rfl, fun _ inside => absurd inside (Nat.not_lt_zero _)⟩

theorem get_outside (outside : builders.size ≤ id) : builders.get id = {} := by
  rw [get, Array.getD_eq_getD_getElem?, Array.getElem?_eq_none outside, Option.getD_none]

section Modify
variable {f : Builder → Builder}

@[simp] theorem size_modify : (builders.modify id f).size = builders.size := Array.size_modify

theorem get_modify_same (inside : id < builders.size) : (builders.modify id f).get id = f (builders.get id) := by
  have inside : id < builders.store.size := inside
  simp [modify, get, Array.getElem_modify, inside]

theorem get_modify_other (different : other ≠ id) : (builders.modify id f).get other = builders.get other := by
  simp [modify, get, Array.getElem?_modify, different.symm]

theorem get_modify :
    (builders.modify id f).get other =
      if other = id ∧ other < builders.size then f (builders.get other) else builders.get other := by
  split
  · next holds =>
    obtain ⟨rfl, inside⟩ := holds
    exact get_modify_same inside
  · next fails =>
    rcases not_and_or.mp fails with different | outside
    · exact get_modify_other different
    · have outside := Nat.not_lt.mp outside
      rw [get_outside outside, get_outside (size_modify.trans_le outside)]

theorem read_modify {α : Type} {read : Builder → α} (keeps : ∀ builder, read (f builder) = read builder) :
    read ((builders.modify id f).get other) = read (builders.get other) := by
  rw [get_modify]
  split
  · exact keeps _
  · rfl

theorem bag_modify (keeps : ∀ builder, (f builder).bag = builder.bag) :
    ((builders.modify id f).get other).bag = (builders.get other).bag :=
  read_modify keeps

theorem rules_modify (keeps : ∀ builder, (f builder).bag = builder.bag) :
    (builders.modify id f).rules other = builders.rules other := by
  simp only [rules, bag_modify keeps]
  rfl

theorem Tidy.modify (tidy : builders.Tidy) (keeps : ∀ builder, (f builder).bag = builder.bag) :
    (builders.modify id f).Tidy where
  bags := by rw [size_modify]; exact tidy.bags
  own other inside := by rw [bag_modify keeps]; exact tidy.own other (by simpa using inside)

end Modify

section Create
variable {builder : Builder}

@[simp] theorem size_create : (builders.create builder).2.size = builders.size + 1 := Array.size_push _

theorem get_create_old (inside : id < builders.size) : (builders.create builder).2.get id = builders.get id := by
  simp only [create, get, Array.getD_eq_getD_getElem?]
  rw [Array.getElem?_push_lt inside, Array.getElem?_eq_getElem inside]

theorem get_create_last :
    (builders.create builder).2.get builders.size = { builder with bag := builders.bags.size } := by
  simp [create, get, size]

theorem get_create_new (tidy : builders.Tidy) :
    (builders.create builder).2.get builders.size = { builder with bag := builders.size } := by
  rw [get_create_last, tidy.bags]

theorem read_create {α : Type} {read : Builder → α} (blank : ∀ bag, read { builder with bag } = read {}) :
    read ((builders.create builder).2.get id) = read (builders.get id) := by
  rcases lt_trichotomy id builders.size with inside | rfl | outside
  · rw [get_create_old inside]
  · rw [get_create_last, get_outside (Nat.le_refl _)]
    exact blank _
  · rw [get_outside (Nat.le_of_lt outside), get_outside (size_create.trans_le outside)]

theorem Tidy.create (tidy : builders.Tidy) : (builders.create builder).2.Tidy where
  bags := by
    rw [size_create, ← tidy.bags]
    exact Array.size_push _
  own id inside := by
    rw [size_create] at inside
    rcases Nat.lt_succ_iff_lt_or_eq.mp inside with old | rfl
    · rw [get_create_old old]
      exact tidy.own id old
    · rw [get_create_new tidy]

theorem rules_create_old (tidy : builders.Tidy) (inside : id < builders.size) :
    (builders.create builder).2.rules id = builders.rules id := by
  have bag : id < builders.bags.size := tidy.bags ▸ inside
  simp only [rules, get_create_old inside, tidy.own id inside]
  simp only [Builders.create, Array.getD_eq_getD_getElem?]
  rw [Array.getElem?_push_lt bag, Array.getElem?_eq_getElem bag]

theorem rules_create_new (tidy : builders.Tidy) : (builders.create builder).2.rules builders.size = [] := by
  have bags : builders.bags.size = builders.size := tidy.bags
  rw [rules, get_create_new tidy]
  simp [Builders.create, ← bags]

end Create

section PushRules
variable {more : List Rule}

@[simp] theorem size_pushRules : (builders.pushRules id more).size = builders.size := rfl

@[simp] theorem get_pushRules : (builders.pushRules id more).get other = builders.get other := rfl

theorem Tidy.pushRules (tidy : builders.Tidy) : (builders.pushRules id more).Tidy where
  bags := by
    rw [size_pushRules, ← tidy.bags]
    exact Array.size_modify
  own := tidy.own

theorem rules_pushRules_same (tidy : builders.Tidy) (inside : id < builders.size) :
    (builders.pushRules id more).rules id = builders.rules id ++ more := by
  have bag : id < builders.bags.size := tidy.bags ▸ inside
  rw [rules, get_pushRules, rules, tidy.own id inside]
  simp [Builders.pushRules, modifyRules, tidy.own id inside, Array.getElem_modify, bag]

theorem rules_pushRules_other (tidy : builders.Tidy) (inside : id < builders.size) (within : other < builders.size)
    (different : other ≠ id) : (builders.pushRules id more).rules other = builders.rules other := by
  rw [rules, get_pushRules, rules, tidy.own other within]
  simp [Builders.pushRules, modifyRules, tidy.own id inside, Array.getElem?_modify, different.symm]

end PushRules

end SchemaClasses.Builders
