import SchemaClasses.Instance
import Mathlib.Data.List.Induction
import Mathlib.Data.List.Nodup
import Mathlib.Data.List.Perm.Basic

/-! Values grouped by key. What is put into the fields of an instance one after the other is grouped by field. -/

namespace SchemaClasses

section Lists
variable {α κ : Type} [DecidableEq κ]

theorem eraseDups_concat {keys : List κ} {key : κ} :
    (keys ++ [key]).eraseDups = if key ∈ keys then keys.eraseDups else keys.eraseDups ++ [key] := by
  rw [List.eraseDups_append]
  split
  · next known => simp [List.removeAll, known]
  · next new => simp [List.removeAll, new, List.eraseDups_cons]

theorem nodup_eraseDups (keys : List κ) : keys.eraseDups.Nodup := by
  induction keys using List.reverseRecOn with
  | nil => exact .nil
  | append_singleton keys key ih =>
    rw [eraseDups_concat]
    split
    · exact ih
    · next new =>
      rw [List.nodup_append]
      refine ⟨ih, List.nodup_singleton _, ?_⟩
      intro other member last single same
      rw [List.mem_singleton.mp single] at same
      exact new (List.mem_eraseDups.mp (same ▸ member))

theorem flatMap_filter_perm {group : α → κ} {keys : List κ} (distinct : keys.Nodup) {values : List α}
    (covered : ∀ value ∈ values, group value ∈ keys) :
    (keys.flatMap fun key => values.filter (group · = key)).Perm values := by
  induction keys generalizing values with
  | nil =>
    rw [List.eq_nil_iff_forall_not_mem.mpr fun value member => List.not_mem_nil (covered value member)]
    exact .nil
  | cons key keys ih =>
    obtain ⟨new, distinct⟩ := List.nodup_cons.mp distinct
    have others : (keys.flatMap fun other => values.filter (group · = other)) =
        keys.flatMap fun other => (values.filter fun value => !decide (group value = key)).filter
            (group · = other) := by
      apply List.flatMap_congr
      intro other member
      rw [List.filter_filter]
      apply List.filter_congr
      intro value _
      by_cases same : group value = other
      · simp [same, ne_of_mem_of_not_mem member new]
      · simp [same]
    have remaining : ∀ value ∈ values.filter fun value => !decide (group value = key), group value ∈ keys := by
      intro value member
      obtain ⟨member, other⟩ := List.mem_filter.mp member
      exact (List.mem_cons.mp (covered value member)).resolve_left (by simpa using other)
    rw [List.flatMap_cons, others]
    exact ((ih distinct remaining).append_left _).trans (List.filter_append_perm _ values)

end Lists

namespace Entries
variable {α : Type} {key : String} {change : Option α → α} {value : String → α} {keys : List String}

/-- Entries that say for each of some keys what stands under it. -/
abbrev table (keys : List String) (value : String → α) : Entries α :=
  keys.map fun key => (key, value key)

theorem alter_new (new : key ∉ keys) :
    (table keys value).alter key change = table keys value ++ [(key, change none)] := by
  induction keys with
  | nil => rfl
  | cons first keys ih =>
    have other : first ≠ key := fun same => new (same ▸ List.mem_cons_self)
    simp only [table, List.map_cons, alter, if_neg other, List.cons_append, List.cons.injEq, true_and]
    exact ih fun member => new (List.mem_cons_of_mem _ member)

theorem alter_known (known : key ∈ keys) (distinct : keys.Nodup) :
    (table keys value).alter key change = table keys fun other =>
      if other = key then change (some (value key)) else value other := by
  induction keys with
  | nil => cases known
  | cons first keys ih =>
    obtain ⟨new, distinct⟩ := List.nodup_cons.mp distinct
    simp only [table, List.map_cons, alter]
    split
    · next same =>
      subst same
      congr 1
      apply List.map_congr_left
      intro other member
      rw [if_neg fun same : other = first => new (same ▸ member)]
    · next other =>
      congr 1
      exact ih ((List.mem_cons.mp known).resolve_left (Ne.symm other)) distinct

theorem get?_table (known : key ∈ keys) : (table keys value).get? key = some (value key) := by
  induction keys with
  | nil => cases known
  | cons first keys ih =>
    simp only [table, List.map_cons, get?, List.lookup_cons]
    split
    · next same => rw [beq_iff_eq.mp same]
    · next other => exact ih ((List.mem_cons.mp known).resolve_left (beq_eq_false_iff_ne.mp other))

theorem get?_table_new (new : key ∉ keys) : (table keys value).get? key = none := by
  induction keys with
  | nil => rfl
  | cons first keys ih =>
    have other : key ≠ first := fun same => new (same ▸ List.mem_cons_self)
    simp only [table, List.map_cons, get?, List.lookup_cons, beq_eq_false_iff_ne.mpr other]
    exact ih fun member => new (List.mem_cons_of_mem _ member)

/-- What is given under the same name more than once keeps its place and is what was given last. -/
theorem ofList_eq {α : Type} [Inhabited α] (pairs : List (String × α)) :
    ofList pairs = table (pairs.map Prod.fst).eraseDups fun key => (pairs.reverse.lookup key).getD default := by
  induction pairs using List.reverseRecOn with
  | nil => rfl
  | append_singleton pairs pair ih =>
    obtain ⟨key, value⟩ := pair
    have last (other : String) : ((pairs ++ [(key, value)]).reverse.lookup other).getD default =
        if other = key then value else (pairs.reverse.lookup other).getD default := by
      rw [List.reverse_append, List.reverse_singleton, List.singleton_append, List.lookup_cons]
      by_cases same : other = key
      · simp [same]
      · rw [beq_eq_false_iff_ne.mpr same, if_neg same]
    have grown : ofList (pairs ++ [(key, value)]) = (ofList pairs).insert key value := by
      rw [ofList, List.foldl_append]
      rfl
    rw [grown, ih, insert, List.map_append, List.map_singleton, eraseDups_concat]
    simp only [last]
    split
    · next known =>
      exact alter_known (List.mem_eraseDups.mpr known) (nodup_eraseDups _)
    · next new =>
      have unused : key ∉ (pairs.map Prod.fst).eraseDups := fun member => new (List.mem_eraseDups.mp member)
      rw [alter_new unused, table, table, List.map_append, List.map_singleton, if_pos rfl]
      congr 1
      apply List.map_congr_left
      intro other member
      rw [if_neg (ne_of_mem_of_not_mem member unused)]

end Entries

namespace Instance

/-- Values by field: the fields in the order in which they first occur, each with its values in order. -/
def grouped (values : List (String × Instance)) : List (String × List Instance) :=
  Entries.table (values.map Prod.fst).eraseDups fun key => (values.filter fun value => value.1 == key).map Prod.snd

private theorem filter_unused {values : List (String × Instance)} {field : String} (new : field ∉ values.map Prod.fst) :
    (values.filter fun value => value.1 == field) = [] := by
  rw [List.filter_eq_nil_iff]
  intro value member same
  rw [← beq_iff_eq.mp same] at new
  exact new (List.mem_map_of_mem member)

theorem alter_grouped {values : List (String × Instance)} {field : String} {value : Instance} :
    Entries.alter field (fun old => old.getD [] ++ [value])
    (grouped values) = grouped (values ++ [(field, value)]) := by
  have others (key : String) : ((values ++ [(field, value)]).filter fun entry => entry.1 == key).map Prod.snd =
      (values.filter fun entry => entry.1 == key).map Prod.snd ++ if key = field then [value] else [] := by
    rw [List.filter_append, List.map_append]
    by_cases same : key = field
    · simp [same]
    · simp [same, Ne.symm same]
  have distinct := nodup_eraseDups (values.map Prod.fst)
  rw [grouped, grouped, List.map_append, List.map_singleton, eraseDups_concat]
  split
  · next known =>
    rw [Entries.alter_known (List.mem_eraseDups.mpr known) distinct]
    apply List.map_congr_left
    intro key member
    dsimp only
    rw [others]
    by_cases same : key = field
    · simp [same]
    · simp [same]
  · next new =>
    rw [Entries.alter_new fun member => new (List.mem_eraseDups.mp member), Entries.table,
      Entries.table, List.map_append]
    congr 1
    · apply List.map_congr_left
      intro key member
      rw [others, if_neg fun same : key = field => new (same ▸ List.mem_eraseDups.mp member), List.append_nil]
    · rw [List.map_singleton, others, filter_unused new, if_pos rfl]
      rfl

theorem foldl_pushField (values : List (String × Instance)) (object : Instance) (before : List (String × Instance))
    (fields : object.fields = grouped before) :
    values.foldl (fun object value => object.pushField value.1 value.2) object =
    { object with fields := grouped (before ++ values) } := by
  induction values generalizing object before with
  | nil =>
    rw [List.append_nil, ← fields]
    cases object
    rfl
  | cons value values ih =>
    rw [List.foldl_cons, ih _ (before ++ [value]) (by rw [pushField, fields, alter_grouped]), List.append_assoc]
    rfl

section Grouped
variable {values : List (String × Instance)}

theorem grouped_keys : (grouped values).map Prod.fst = (values.map Prod.fst).eraseDups := by
  rw [grouped, Entries.table, List.map_map]
  exact List.map_id _

theorem grouped_values (key : String) :
    (Entries.get? (grouped values) key).getD [] = (values.filter fun value => value.1 == key).map Prod.snd := by
  by_cases known : key ∈ values.map Prod.fst
  · rw [grouped, Entries.get?_table (List.mem_eraseDups.mpr known), Option.getD_some]
  · rw [grouped, Entries.get?_table_new fun member => known (List.mem_eraseDups.mp member), filter_unused known]
    rfl

/-- No value is lost, and none comes twice. -/
theorem grouped_perm : ((grouped values).flatMap Prod.snd).Perm (values.map Prod.snd) := by
  have all : ((values.map Prod.fst).eraseDups.flatMap fun key => values.filter (Prod.fst · = key)).Perm values :=
    flatMap_filter_perm (nodup_eraseDups _) fun value member => List.mem_eraseDups.mpr (List.mem_map_of_mem member)
  rw [grouped, Entries.table, List.flatMap_map]
  have apart := all.map Prod.snd
  rw [List.map_flatMap] at apart
  exact apart

end Grouped

end Instance
end SchemaClasses
