import SchemaClasses.Builder.Basic

/-! What can be reached from a builder along its links, and copies of it. Both go depth first, to each builder
once and to its links in order. -/

namespace SchemaClasses

theorem countP_lt_countP {α : Type} {p q : α → Bool} {items : List α} {item : α}
    (implies : ∀ x, p x → q x) (member : item ∈ items) (holds : q item) (fails : ¬ p item) :
    items.countP p < items.countP q := by
  induction items with
  | nil => cases member
  | cons head tail ih =>
    have rest : tail.countP p ≤ tail.countP q := List.countP_mono_left fun x _ => implies x
    simp only [List.countP_cons]
    rcases List.mem_cons.mp member with rfl | inside
    · simp only [holds, fails, if_true]
      simp only [Bool.false_eq_true, if_false]
      omega
    · have step := ih inside
      by_cases first : p head
      · simp only [first, implies head first, if_true]; omega
      · simp only [first, Bool.false_eq_true, if_false]; omega

/-- How many numbers below the bound are not yet found. -/
def missing (bound : Nat) (found : Array Nat) : Nat :=
  (List.range bound).countP (!found.contains ·)

theorem missing_push (bound : Nat) (found : Array Nat) (id : Nat) :
    missing bound (found.push id) ≤ missing bound found :=
  List.countP_mono_left fun x _ => by simp; intro absent _; exact absent

theorem missing_push_lt {bound : Nat} {found : Array Nat} {id : Nat} (inside : id < bound)
    (absent : found.contains id = false) : missing bound (found.push id) < missing bound found :=
  countP_lt_countP (fun x => by simp; intro absent _; exact absent) (List.mem_range.mpr inside)
    (by rw [absent]; rfl) (by simp)

/-- Follows links from the pending numbers, those of a number before what was pending already, and
lists each number where it is first met. -/
def walk (links : Nat → List Nat) (bound : Nat) : List Nat → Array Nat → Array Nat
  | [], found => found
  | id :: pending, found =>
    if found.contains id then walk links bound pending found
    else if id < bound then walk links bound (links id ++ pending) (found.push id)
    else walk links bound pending (found.push id)
  termination_by pending found => (missing bound found, pending.length)
  decreasing_by
    · exact Prod.Lex.right _ (by simp)
    · next absent inside => exact Prod.Lex.left _ _ (missing_push_lt inside (by simpa using absent))
    · rcases Nat.lt_or_eq_of_le (missing_push bound found id) with less | same
      · exact Prod.Lex.left _ _ less
      · rw [same]; exact Prod.Lex.right _ (by simp)

namespace Builders

/-- The links of a builder: its base, its item type, its fields. -/
def links (builders : Builders) (id : BuilderId) : List BuilderId :=
  let builder := builders.get id
  builder.base.toList ++ builder.item.toList ++ builder.fields

def reachable (builders : Builders) (id : BuilderId) : List BuilderId :=
  (walk builders.links builders.size (builders.links id) #[]).toList

/-- Which builder each copied builder was copied to. -/
abbrev Copies := List (BuilderId × BuilderId)

/-- A copying under way, in a store that had so many builders when it began. -/
structure Copier (originals : Nat) where
  builders : Builders
  copies : Copies

namespace Copier
variable {originals : Nat}

def remaining (copier : Copier originals) : Nat :=
  (List.range originals).countP fun id => (copier.copies.lookup id).isNone

/-- Adds a copy that has no links yet. It shares the bag of its model. -/
def register (copier : Copier originals) (id : BuilderId) : Copier originals where
  builders := { copier.builders with
    store := copier.builders.store.push { copier.builders.get id with item := none, base := none, fields := [] } }
  copies := copier.copies ++ [(id, copier.builders.size)]

def link (copier : Copier originals) (copy : BuilderId) (item base : Option BuilderId) (fields : List BuilderId) :
    Copier originals :=
  { copier with builders := copier.builders.modify copy ({ · with item, base, fields }) }

/-- Copying changes no builder that was there before. -/
structure Grows (before after : Copier originals) : Prop where
  remaining : after.remaining ≤ before.remaining
  size : before.builders.size ≤ after.builders.size
  get : ∀ id < before.builders.size, after.builders.get id = before.builders.get id
  bags : after.builders.bags = before.builders.bags

theorem Grows.refl (copier : Copier originals) : copier.Grows copier :=
  ⟨Nat.le_refl _, Nat.le_refl _, fun _ _ => rfl, rfl⟩

theorem Grows.trans {first second third : Copier originals} (grows : first.Grows second)
    (further : second.Grows third) :
    first.Grows third where
  remaining := Nat.le_trans further.remaining grows.remaining
  size := Nat.le_trans grows.size further.size
  get id inside := (further.get id (Nat.lt_of_lt_of_le inside grows.size)).trans (grows.get id inside)
  bags := further.bags.trans grows.bags

variable {copier : Copier originals} {id : BuilderId}

private theorem isNone_of_register (other : BuilderId)
    (absent : ((copier.register id).copies.lookup other).isNone = true) :
    (copier.copies.lookup other).isNone = true := by
  rw [register, List.lookup_append, Option.isNone_iff_eq_none, Option.or_eq_none_iff] at absent
  exact Option.isNone_iff_eq_none.mpr absent.1

theorem remaining_register (inside : id < originals) (absent : copier.copies.lookup id = none) :
    (copier.register id).remaining < copier.remaining :=
  countP_lt_countP isNone_of_register (List.mem_range.mpr inside) (by rw [absent]; rfl) (by simp [register])

theorem Grows.register : copier.Grows (copier.register id) where
  remaining := List.countP_mono_left fun other _ => isNone_of_register other
  size := by simp [Copier.register, Builders.size]
  get other inside := by
    simp only [Copier.register, Builders.get, Array.getD_eq_getD_getElem?]
    rw [Array.getElem?_push_lt inside, Array.getElem?_eq_getElem inside]
  bags := rfl

theorem Grows.link {later : Copier originals} {item base : Option BuilderId} {fields : List BuilderId}
    (grows : copier.Grows later) : copier.Grows (later.link copier.builders.size item base fields) where
  remaining := grows.remaining
  size := Nat.le_trans grows.size (by simp [Copier.link, Builders.modify, Builders.size])
  get other inside := by
    rw [← grows.get other inside]
    simp only [Copier.link, Builders.modify, Builders.get, Array.getD_eq_getD_getElem?]
    rw [Array.getElem?_modify, if_neg (Nat.ne_of_gt inside)]
  bags := grows.bags

/-- What copying gives, and the state that it leads to. -/
structure Result (copier : Copier originals) (α : Type) where
  value : α
  later : Copier originals
  grows : copier.Grows later

mutual

/-- The copy of a builder. It is registered before the links of the builder are followed, so that what is shared stays
shared and cycles close on the copies, and gets its own links at the end. What is no builder is left alone. -/
def copy (copier : Copier originals) (id : BuilderId) : copier.Result BuilderId :=
  match _absent : copier.copies.lookup id with
  | some copy => ⟨copy, copier, .refl copier⟩
  | none =>
    if id < originals then
      let original := copier.builders.get id
      let copy := copier.builders.size
      let ⟨item, linked, grows⟩ := (copier.register id).copyEach original.item.toList
      let ⟨base, derived, further⟩ := linked.copyEach original.base.toList
      let ⟨fields, filled, last⟩ := derived.copyEach original.fields
      { value := copy
        later := filled.link copy item.head? base.head? fields
        grows := (Grows.register.trans (grows.trans (further.trans last))).link }
    else ⟨id, copier, .refl copier⟩
  termination_by (copier.remaining, 0)
  decreasing_by
    all_goals have less := remaining_register ‹id < originals› _absent
    · exact Prod.Lex.left _ _ less
    · exact Prod.Lex.left _ _ (Nat.lt_of_le_of_lt grows.remaining less)
    · exact Prod.Lex.left _ _ (Nat.lt_of_le_of_lt (grows.trans further).remaining less)

def copyEach (copier : Copier originals) (ids : List BuilderId) : copier.Result (List BuilderId) :=
  match ids with
  | [] => ⟨[], copier, .refl copier⟩
  | id :: ids =>
    let ⟨copy, next, grows⟩ := copier.copy id
    let ⟨copies, later, further⟩ := next.copyEach ids
    ⟨copy :: copies, later, grows.trans further⟩
  termination_by (copier.remaining, ids.length + 1)
  decreasing_by
    · exact Prod.Lex.right _ (Nat.succ_pos _)
    · rcases Nat.lt_or_eq_of_le grows.remaining with less | same
      · exact Prod.Lex.left _ _ less
      · rw [same]; exact Prod.Lex.right _ (by simp)

end

end Copier

/-- A copy of all that can be reached from `id`, using the copies made before. -/
def copyInto (builders : Builders) (copies : Copies) (id : BuilderId) : BuilderId × Builders × Copies :=
  let copied := (⟨builders, copies⟩ : Copier builders.size).copy id
  (copied.value, copied.later.builders, copied.later.copies)

def copy (builders : Builders) (id : BuilderId) : BuilderId × Builders :=
  let (image, builders, _) := builders.copyInto [] id
  (image, builders)

end Builders
end SchemaClasses
