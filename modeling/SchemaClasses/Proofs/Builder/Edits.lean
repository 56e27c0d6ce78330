import SchemaClasses.Proofs.Builder.Copying
import SchemaClasses.Proofs.Builder.Range

/-! Edits of a store, one after the other. Edits that name only builders of the store leave no link and no
bag out of range. -/

namespace SchemaClasses.Builders

/-- What can be set in a builder. -/
inductive Setting where
  | target (value : Option Target)
  | className (name : Option String)
  | fieldTag (name : Option String)
  | item (link : Option BuilderId)
  | base (link : Option BuilderId)

namespace Setting

def apply : Setting → Builder → Builder
  | target value, builder => { builder with target := value }
  | className name, builder => { builder with className := name }
  | fieldTag name, builder => { builder with fieldTag := name }
  | item link, builder => { builder with item := link }
  | base link, builder => { builder with base := link }

def link? : Setting → Option BuilderId
  | item link | base link => link
  | target _ | className _ | fieldTag _ => none

theorem apply_bag (setting : Setting) (builder : Builder) : (setting.apply builder).bag = builder.bag := by
  cases setting <;> rfl

theorem apply_linksTo {sort : BuilderId → Prop} {builder : Builder} (setting : Setting)
    (holds : ∀ link, setting.link? = some link → sort link) (links : builder.LinksTo sort) :
    (setting.apply builder).LinksTo sort := by
  cases setting with
  | item => exact ⟨links.base, holds, links.fields⟩
  | base => exact ⟨holds, links.item, links.fields⟩
  | target | className | fieldTag => exact ⟨links.base, links.item, links.fields⟩

end Setting

inductive Edit where
  | create
  | createNamed (className : String)
  | createBuiltin (type : Builtin)
  | set (id : BuilderId) (setting : Setting)
  | setBuiltinBase (id : BuilderId) (type : Builtin)
  | pushField (id field : BuilderId)
  | pushRule (id : BuilderId) (rule : Rule)
  | replaceRules (id : BuilderId) (rules : List Rule)
  | copy (root : BuilderId)
  | copyInto (copies : Copies) (root : BuilderId)

namespace Edit

def apply (builders : Builders) : Edit → Builders
  | create => builders.create.2
  | createNamed className => (builders.createNamed className).2
  | createBuiltin type => (builders.createBuiltin type).2
  | set id setting => builders.modify id setting.apply
  | setBuiltinBase id type => builders.setBuiltinBase id type
  | pushField id field => builders.pushField id field
  | pushRule id rule => builders.pushRule id rule
  | replaceRules id rules => builders.replaceRules id rules
  | copy root => (builders.copy root).2
  | copyInto copies root => (builders.copyInto copies root).2.1

/-- The builder that an edit changes. Copying changes none of those that are there. -/
def aim? : Edit → Option BuilderId
  | set id _ | setBuiltinBase id _ | pushField id _ | pushRule id _ | replaceRules id _ => some id
  | create | createNamed _ | createBuiltin _ | copy _ | copyInto .. => none

/-- All that an edit names is there. Builders may have been copied to any others. -/
def Allowed (builders : Builders) : Edit → Prop
  | create | createNamed _ | createBuiltin _ => True
  | set id setting => id < builders.size ∧ ∀ link, setting.link? = some link → link < builders.size
  | setBuiltinBase id _ | pushRule id _ | replaceRules id _ => id < builders.size
  | pushField id field => id < builders.size ∧ field < builders.size
  | copy root => root < builders.size
  | copyInto copies root => root < builders.size ∧ ∀ id copy, copies.lookup id = some copy → copy < builders.size

end Edit

def editAll (builders : Builders) : List Edit → Builders
  | [] => builders
  | edit :: edits => (edit.apply builders).editAll edits

def AllAllowed (builders : Builders) : List Edit → Prop
  | [] => True
  | edit :: edits => edit.Allowed builders ∧ (edit.apply builders).AllAllowed edits

/-- The links and the bags of all builders are there. -/
structure Ranged (builders : Builders) : Prop where
  links : builders.InRange
  bags : ∀ id < builders.size, (builders.get id).bag < builders.bags.size

variable {builders : Builders} {id other root : BuilderId} {copies : Copies}

section Create
variable {builder : Builder}

@[simp] theorem bags_create : (builders.create builder).2.bags = builders.bags.push [] := rfl

theorem lt_create (inside : other < (builders.create builder).2.size) : other < builders.size ∨ other = builders.size :=
  Nat.lt_succ_iff_lt_or_eq.mp (Nat.lt_of_lt_of_eq inside size_create)

theorem rules_create (ranged : builders.Ranged) (inside : other < builders.size) :
    (builders.create builder).2.rules other = builders.rules other := by
  have bag := ranged.bags other inside
  simp only [rules, get_create_old inside, bags_create, Array.getD_eq_getD_getElem?]
  rw [Array.getElem?_push_lt bag, Array.getElem?_eq_getElem bag]

theorem rules_create_last : (builders.create builder).2.rules builders.size = [] := by
  rw [rules, get_create_last, bags_create]
  simp

end Create

section ReplaceRules
variable {more : List Rule}

@[simp] theorem size_replaceRules : (builders.replaceRules id more).size = builders.size := size_modify

@[simp] theorem bags_replaceRules : (builders.replaceRules id more).bags = builders.bags.push more := rfl

theorem get_replaceRules_same (inside : id < builders.size) :
    (builders.replaceRules id more).get id = { builders.get id with bag := builders.bags.size } :=
  get_modify_same inside

theorem get_replaceRules_other (different : other ≠ id) :
    (builders.replaceRules id more).get other = builders.get other :=
  get_modify_other different

theorem rules_replaceRules_same (inside : id < builders.size) : (builders.replaceRules id more).rules id = more := by
  rw [rules, get_replaceRules_same inside, bags_replaceRules]
  simp

theorem rules_replaceRules_other (ranged : builders.Ranged) (within : other < builders.size) (different : other ≠ id) :
    (builders.replaceRules id more).rules other = builders.rules other := by
  have bag := ranged.bags other within
  simp only [rules, get_replaceRules_other different, bags_replaceRules, Array.getD_eq_getD_getElem?]
  rw [Array.getElem?_push_lt bag, Array.getElem?_eq_getElem bag]

end ReplaceRules

/-- A rule that is pushed through a builder shows in all that have the bag of the builder. -/
theorem rules_pushRule (ranged : builders.Ranged) (inside : id < builders.size) {rule : Rule} :
    (builders.pushRule id rule).rules other =
      if (builders.get other).bag = (builders.get id).bag then builders.rules other ++
      [rule] else builders.rules other := by
  have same : (builders.pushRule id rule).get other = builders.get other := rfl
  have bag := ranged.bags id inside
  rw [rules, same]
  split
  · next shared =>
    simp [pushRule, modifyRules, rules, shared, Array.getElem_modify, bag]
  · next apart =>
    simp [pushRule, modifyRules, rules, Array.getElem?_modify, Ne.symm apart]

section CopyInto
variable (range : builders.InRange) (inside : root < builders.size)
include range inside

theorem get_copyInto_new (after : builders.size ≤ other) (before : other < (builders.copyInto copies root).2.1.size) :
    ∃ model ∈ builders.uncopied copies root, (builders.uncopied copies root)[other - builders.size]? = some model ∧
      (builders.copyInto copies root).2.1.get other =
        relink (builders.copyInto copies root).2.2 (builders.get model) := by
  rw [copyInto_size range inside] at before
  have bound : other - builders.size < (builders.uncopied copies root).length := Nat.sub_lt_left_of_lt_add after before
  have located := List.getElem?_eq_getElem bound
  refine ⟨_, List.mem_of_getElem? located, located, ?_⟩
  have made : (builders.copyInto copies root).2.1.get (builders.size + (other - builders.size)) = _ :=
    copyInto_get_new range inside located
  rwa [Nat.add_sub_cancel' after] at made

theorem lookup_of_link {model next : BuilderId} (member : model ∈ builders.uncopied copies root)
    (linked : next ∈ builders.links model) :
    ∃ copy, (builders.copyInto copies root).2.2.lookup next = some copy := by
  rcases copied_or_uncopied_of_link range inside member linked with ⟨copy, copied⟩ | found
  · exact ⟨copy, copyInto_keeps range inside copied⟩
  · exact copyInto_adds range inside found

theorem copyInto_lookup_lt (known : ∀ id copy, copies.lookup id = some copy → copy < builders.size) {copy : Nat}
    (found : (builders.copyInto copies root).2.2.lookup id = some copy) :
    copy < (builders.copyInto copies root).2.1.size := by
  rw [copyInto_size range inside]
  rcases (copyInto_lookup range inside).mp found with copied | ⟨_, _, located⟩
  · exact Nat.lt_add_right _ (known id copy copied)
  · have bound := (List.getElem?_eq_some_iff.mp located).1
    omega

end CopyInto

namespace Ranged

theorem empty : Ranged {} :=
  ⟨fun _ inside => absurd inside (Nat.not_lt_zero _), fun _ inside => absurd inside (Nat.not_lt_zero _)⟩

variable (ranged : builders.Ranged)
include ranged

theorem modify {f : Builder → Builder} (keeps : ∀ builder, (f builder).bag = builder.bag)
    (links : ∀ builder : Builder, builder.LinksTo (· < builders.size) → (f builder).LinksTo (· < builders.size)) :
    (builders.modify id f).Ranged where
  links := ranged.links.modify links
  bags other inside := by
    rw [bag_modify keeps]
    exact ranged.bags other (by simpa using inside)

theorem create {target : Option Target} {className : Option String} :
    (builders.create { target, className }).2.Ranged where
  links := ranged.links.create
  bags other inside := by
    rw [bags_create, Array.size_push]
    rcases lt_create inside with old | rfl
    · rw [get_create_old old]
      exact Nat.lt_succ_of_lt (ranged.bags other old)
    · rw [get_create_last]
      exact Nat.lt_succ_self _

theorem pushRule {rule : Rule} : (builders.pushRule id rule).Ranged where
  links := ranged.links
  bags other inside := Nat.lt_of_lt_of_eq (ranged.bags other inside) Array.size_modify.symm

theorem replaceRules {more : List Rule} : (builders.replaceRules id more).Ranged where
  links := by
    have kept : (builders.modify id ({ · with bag := builders.bags.size })).InRange :=
      ranged.links.modify fun _ links => ⟨links.base, links.item, links.fields⟩
    exact kept
  bags other inside := by
    rw [bags_replaceRules, Array.size_push]
    have within : other < builders.size := by simpa using inside
    by_cases same : other = id
    · subst same
      rw [get_replaceRules_same within]
      exact Nat.lt_succ_self _
    · rw [get_replaceRules_other same]
      exact Nat.lt_succ_of_lt (ranged.bags other within)

theorem copyInto (inside : root < builders.size)
    (known : ∀ id copy, copies.lookup id = some copy → copy < builders.size) :
    (builders.copyInto copies root).2.1.Ranged where
  links := by
    rw [inRange_iff]
    intro other bound
    rcases Nat.lt_or_ge other builders.size with old | new
    · rw [copyInto_get_old old]
      exact (inRange_iff.mp ranged.links other old).mono fun _ less => Nat.lt_of_lt_of_le less copyInto_grows.size
    · obtain ⟨model, member, _, made⟩ := get_copyInto_new ranged.links inside new bound
      have image (next : BuilderId) (linked : next ∈ builders.links model) :
          (builders.copyInto copies root).2.2.image next < (builders.copyInto copies root).2.1.size := by
        obtain ⟨copy, copied⟩ := lookup_of_link ranged.links inside member linked
        rw [Copies.image, copied]
        exact copyInto_lookup_lt ranged.links inside known copied
      rw [made]
      refine ⟨fun next base => ?_, fun next item => ?_, List.forall_mem_map.mpr fun next field => ?_⟩
      · obtain ⟨link, found, rfl⟩ := Option.map_eq_some_iff.mp base
        exact image link (mem_links.mpr (Or.inl found))
      · obtain ⟨link, found, rfl⟩ := Option.map_eq_some_iff.mp item
        exact image link (mem_links.mpr (Or.inr (Or.inl found)))
      · exact image next (mem_links.mpr (Or.inr (Or.inr field)))
  bags other bound := by
    rw [bags_copyInto]
    rcases Nat.lt_or_ge other builders.size with old | new
    · rw [copyInto_get_old old]
      exact ranged.bags other old
    · obtain ⟨model, member, _, made⟩ := get_copyInto_new ranged.links inside new bound
      rw [made]
      exact ranged.bags model (uncopied_lt ranged.links inside member)

theorem apply {edit : Edit} (allowed : edit.Allowed builders) : (edit.apply builders).Ranged := by
  cases edit with
  | create | createNamed | createBuiltin => exact ranged.create
  | set id setting => exact ranged.modify setting.apply_bag fun _ => setting.apply_linksTo allowed.2
  | setBuiltinBase id type =>
    refine ranged.create.modify (fun _ => rfl) fun _ links => ⟨?_, links.item, links.fields⟩
    rintro _ ⟨⟩
    exact Nat.lt_of_lt_of_eq (Nat.lt_succ_self _) size_create.symm
  | pushField id field => exact ranged.modify (fun _ => rfl) fun _ links => links.push (by simpa using allowed.2)
  | pushRule id rule => exact ranged.pushRule
  | replaceRules id more => exact ranged.replaceRules
  | copy root => exact ranged.copyInto allowed (by simp)
  | copyInto copies root => exact ranged.copyInto allowed.1 allowed.2

end Ranged
end SchemaClasses.Builders
