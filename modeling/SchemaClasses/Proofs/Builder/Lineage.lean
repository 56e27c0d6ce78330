import SchemaClasses.Proofs.Builder.Edits

/-! Where the rules of builders come from. Builders share a bag as long as they have the same origin, and what
is in the bag are the rules that the origin began with and those that were pushed since. -/

namespace SchemaClasses.Builders

/-- What is remembered of edits. Each edit is an event, known by the number of edits before it. -/
structure Lineage where
  /-- The event that the rules of each builder go back to. -/
  origins : List Nat := []
  /-- The rules that each event began with, most with none. -/
  initial : List (List Rule) := []
  /-- The rules that were pushed, in order, with the origin that the builder they were pushed through had then. -/
  pushes : List (Nat × Rule) := []

namespace Lineage

def events (lineage : Lineage) : Nat :=
  lineage.initial.length

def origin (lineage : Lineage) (id : BuilderId) : Nat :=
  lineage.origins.getD id 0

/-- The rules that an event began with, followed by those that were pushed since through builders that go
back to it. -/
def rules (lineage : Lineage) (event : Nat) : List Rule :=
  lineage.initial.getD event [] ++ (lineage.pushes.filter fun push => push.1 = event).map Prod.snd

def advance (lineage : Lineage) (rules : List Rule) : Lineage :=
  { lineage with initial := lineage.initial ++ [rules] }

def withOrigins (lineage : Lineage) (origins : List Nat) : Lineage :=
  { lineage with origins }

def push (lineage : Lineage) (event : Nat) (rule : Rule) : Lineage :=
  { lineage with pushes := lineage.pushes ++ [(event, rule)] }

/-- The origins of the builders that copying makes: those of their originals. It adds an entry to the copies
for each of them, in order. -/
def inherited (lineage : Lineage) (builders : Builders) (copies : Copies) (root : BuilderId) : List Nat :=
  ((builders.copyInto copies root).2.2.drop copies.length).map fun added => lineage.origin added.1

/-- What an edit adds. A builder that is made goes back to the making of it, one whose rules are replaced to
the replacement, and a copy to what its original goes back to. -/
def next (lineage : Lineage) (builders : Builders) : Edit → Lineage
  | .create | .createNamed _ | .createBuiltin _ | .setBuiltinBase .. =>
    (lineage.advance []).withOrigins (lineage.origins ++ [lineage.events])
  | .replaceRules id rules => (lineage.advance rules).withOrigins (lineage.origins.set id lineage.events)
  | .pushRule id rule => (lineage.advance []).push (lineage.origin id) rule
  | .copy root => (lineage.advance []).withOrigins (lineage.origins ++ lineage.inherited builders [] root)
  | .copyInto copies root =>
    (lineage.advance []).withOrigins (lineage.origins ++ lineage.inherited builders copies root)
  | .set .. | .pushField .. => lineage.advance []

def nextAll (lineage : Lineage) (builders : Builders) : List Edit → Lineage
  | [] => lineage
  | edit :: edits => (lineage.next builders edit).nextAll (edit.apply builders) edits

variable {lineage : Lineage} {event : Nat} {id : BuilderId} {more : List Rule}

@[simp] theorem events_advance : (lineage.advance more).events = lineage.events + 1 := by simp [events, advance]

theorem rules_advance (begun : event < lineage.events) : (lineage.advance more).rules event = lineage.rules event := by
  simp only [rules, advance, List.getD_eq_getElem?_getD]
  rw [List.getElem?_append_left begun]

theorem rules_advance_last (past : ∀ push ∈ lineage.pushes, push.1 < lineage.events) :
    (lineage.advance more).rules lineage.events = more := by
  have none : (lineage.pushes.filter fun push => push.1 = lineage.events) = [] :=
    List.filter_eq_nil_iff.mpr fun push member => by simpa using Nat.ne_of_lt (past push member)
  simp only [rules, advance, none]
  simp [events]

theorem rules_push {rule : Rule} {other : Nat} :
    (lineage.push event rule).rules other = lineage.rules other ++ if event = other then [rule] else [] := by
  simp only [rules, push, List.filter_append, List.map_append, List.append_assoc]
  by_cases same : event = other <;> simp [same]

theorem origin_append (inside : id < lineage.origins.length) (more : List Nat) :
    (lineage.withOrigins (lineage.origins ++ more)).origin id = lineage.origin id := by
  simp only [origin, withOrigins, List.getD_eq_getElem?_getD]
  rw [List.getElem?_append_left inside]

end Lineage

/-- A store whose bags go by the origins of its builders. -/
structure Follows (builders : Builders) (lineage : Lineage) : Prop where
  ranged : builders.Ranged
  length : lineage.origins.length = builders.size
  begun : ∀ id < builders.size, lineage.origin id < lineage.events
  past : ∀ push ∈ lineage.pushes, push.1 < lineage.events
  shared : ∀ first < builders.size, ∀ second < builders.size,
    (builders.get first).bag = (builders.get second).bag ↔ lineage.origin first = lineage.origin second
  rules : ∀ id < builders.size, builders.rules id = lineage.rules (lineage.origin id)

namespace Follows
variable {builders : Builders} {lineage : Lineage} {id root : BuilderId} {copies : Copies}

theorem empty : Follows {} {} where
  ranged := .empty
  length := rfl
  begun _ inside := absurd inside (Nat.not_lt_zero _)
  past _ member := absurd member List.not_mem_nil
  shared _ inside := absurd inside (Nat.not_lt_zero _)
  rules _ inside := absurd inside (Nat.not_lt_zero _)

variable (follows : builders.Follows lineage)
include follows

theorem advance (more : List Rule) : builders.Follows (lineage.advance more) where
  ranged := follows.ranged
  length := follows.length
  begun id inside := by
    rw [Lineage.events_advance]
    exact Nat.lt_succ_of_lt (follows.begun id inside)
  past push member := by
    rw [Lineage.events_advance]
    exact Nat.lt_succ_of_lt (follows.past push member)
  shared := follows.shared
  rules id inside := (follows.rules id inside).trans (Lineage.rules_advance (follows.begun id inside)).symm

theorem modify {f : Builder → Builder} (keeps : ∀ builder, (f builder).bag = builder.bag)
    (ranged : (builders.modify id f).Ranged) :
    (builders.modify id f).Follows lineage where
  ranged := ranged
  length := by rw [size_modify, follows.length]
  begun other inside := follows.begun other (by simpa using inside)
  past := follows.past
  shared first inside second within := by
    rw [size_modify] at inside within
    simp only [bag_modify keeps]
    exact follows.shared first inside second within
  rules other inside := by
    rw [rules_modify keeps]
    exact follows.rules other (by simpa using inside)

theorem create {target : Option Target} {className : Option String} :
    (builders.create { target, className }).2.Follows
    ((lineage.advance []).withOrigins (lineage.origins ++ [lineage.events])) := by
  have advanced := follows.advance []
  have old {other : BuilderId} (inside : other < builders.size) :
      ((lineage.advance []).withOrigins (lineage.origins ++ [lineage.events])).origin other = lineage.origin other := by
    have known : other < (lineage.advance []).origins.length := Nat.lt_of_lt_of_eq inside follows.length.symm
    exact Lineage.origin_append known _
  have new : ((lineage.advance []).withOrigins (lineage.origins ++ [lineage.events])).origin builders.size =
      lineage.events := by
    rw [← follows.length]
    simp [Lineage.origin, Lineage.withOrigins]
  have bag {other : BuilderId} (inside : other < builders.size) : (builders.get other).bag ≠ builders.bags.size :=
    Nat.ne_of_lt (follows.ranged.bags other inside)
  have origin {other : BuilderId} (inside : other < builders.size) : lineage.origin other ≠ lineage.events :=
    Nat.ne_of_lt (follows.begun other inside)
  refine ⟨follows.ranged.create, by simp [Lineage.withOrigins, follows.length], fun other inside => ?_, advanced.past,
    fun first inside second within => ?_, fun other inside => ?_⟩
  · rcases lt_create inside with earlier | rfl
    · rw [old earlier]
      exact advanced.begun other earlier
    · rw [new]
      exact Nat.lt_of_lt_of_eq (Nat.lt_succ_self _) Lineage.events_advance.symm
  · rcases lt_create inside with before | rfl <;> rcases lt_create within with earlier | rfl
    · rw [get_create_old before, get_create_old earlier, old before, old earlier]
      exact follows.shared first before second earlier
    · rw [get_create_old before, get_create_last, old before, new]
      exact iff_of_false (bag before) (origin before)
    · rw [get_create_old earlier, get_create_last, old earlier, new]
      exact iff_of_false (bag earlier).symm (origin earlier).symm
    · exact iff_of_true rfl rfl
  · rcases lt_create inside with earlier | rfl
    · rw [rules_create follows.ranged earlier, old earlier]
      exact advanced.rules other earlier
    · rw [rules_create_last, new]
      exact (Lineage.rules_advance_last follows.past).symm

theorem pushRule (inside : id < builders.size) {rule : Rule} :
    (builders.pushRule id rule).Follows (lineage.push (lineage.origin id) rule) where
  ranged := follows.ranged.pushRule
  length := follows.length
  begun := follows.begun
  past := by
    refine List.forall_mem_append.mpr ⟨follows.past, ?_⟩
    rintro _ (_ | ⟨_, ⟨⟩⟩)
    exact follows.begun id inside
  shared := follows.shared
  rules other within := by
    have within : other < builders.size := within
    have same : (lineage.push (lineage.origin id) rule).origin other = lineage.origin other := rfl
    have shared := follows.shared other within id inside
    rw [rules_pushRule follows.ranged inside, same, Lineage.rules_push, follows.rules other within]
    by_cases meets : lineage.origin id = lineage.origin other
    · rw [if_pos (shared.mpr meets.symm), if_pos meets]
    · rw [if_neg fun bag => meets (shared.mp bag).symm, if_neg meets, List.append_nil]

theorem replaceRules (inside : id < builders.size) {more : List Rule} :
    (builders.replaceRules id more).Follows
    ((lineage.advance more).withOrigins (lineage.origins.set id lineage.events)) := by
  have advanced := follows.advance more
  have within : id < lineage.origins.length := Nat.lt_of_lt_of_eq inside follows.length.symm
  have new : ((lineage.advance more).withOrigins (lineage.origins.set id lineage.events)).origin id =
      lineage.events := by
    simp [Lineage.origin, Lineage.withOrigins, List.getElem?_set_self within]
  have old {other : BuilderId} (different : other ≠ id) :
      ((lineage.advance more).withOrigins (lineage.origins.set id lineage.events)).origin other =
          lineage.origin other := by
    simp [Lineage.origin, Lineage.withOrigins, List.getElem?_set_ne (Ne.symm different)]
  have bag {other : BuilderId} (inside : other < builders.size) : (builders.get other).bag ≠ builders.bags.size :=
    Nat.ne_of_lt (follows.ranged.bags other inside)
  have origin {other : BuilderId} (inside : other < builders.size) : lineage.origin other ≠ lineage.events :=
    Nat.ne_of_lt (follows.begun other inside)
  refine ⟨follows.ranged.replaceRules, by simp [Lineage.withOrigins, follows.length], fun other bound =>
    ?_, advanced.past, fun first bound second further => ?_, fun other bound => ?_⟩
  all_goals rw [size_replaceRules] at *
  · by_cases same : other = id
    · rw [same, new]
      exact Nat.lt_of_lt_of_eq (Nat.lt_succ_self _) Lineage.events_advance.symm
    · rw [old same]
      exact advanced.begun other bound
  · by_cases left : first = id <;> by_cases right : second = id
    · exact iff_of_true (by rw [left, right]) (by rw [left, right])
    · rw [left, get_replaceRules_same inside, get_replaceRules_other right, new, old right]
      exact iff_of_false (bag further).symm (origin further).symm
    · rw [right, get_replaceRules_same inside, get_replaceRules_other left, new, old left]
      exact iff_of_false (bag bound) (origin bound)
    · rw [get_replaceRules_other left, get_replaceRules_other right, old left, old right]
      exact follows.shared first bound second further
  · by_cases same : other = id
    · rw [same, rules_replaceRules_same inside, new]
      exact (Lineage.rules_advance_last follows.past).symm
    · rw [rules_replaceRules_other follows.ranged bound same, old same]
      exact advanced.rules other bound

/-- A copy has the bag of its original. -/
theorem copyInto (inside : root < builders.size)
    (known : ∀ id copy, copies.lookup id = some copy → copy < builders.size) :
    (builders.copyInto copies root).2.1.Follows
    (lineage.withOrigins (lineage.origins ++ lineage.inherited builders copies root)) := by
  have inherited : lineage.inherited builders copies root = (builders.uncopied copies root).map lineage.origin := by
    rw [Lineage.inherited, uncopied, List.map_map]
    rfl
  have source {other : BuilderId} (bound : other < (builders.copyInto copies root).2.1.size) :
    ∃ original < builders.size,
      ((builders.copyInto copies root).2.1.get other).bag = (builders.get original).bag ∧
        (lineage.withOrigins (lineage.origins ++ lineage.inherited builders copies root)).origin other =
            lineage.origin original := by
    rcases Nat.lt_or_ge other builders.size with old | new
    · refine ⟨other, old, by rw [copyInto_get_old old], Lineage.origin_append ?_ _⟩
      exact Nat.lt_of_lt_of_eq old follows.length.symm
    · obtain ⟨model, member, located, made⟩ := get_copyInto_new follows.ranged.links inside new bound
      refine ⟨model, uncopied_lt follows.ranged.links inside member, by rw [made]; rfl, ?_⟩
      have behind : lineage.origins.length ≤ other := Nat.le_trans (Nat.le_of_eq follows.length) new
      simp only [Lineage.origin, Lineage.withOrigins, List.getD_eq_getElem?_getD, inherited]
      rw [List.getElem?_append_right behind, follows.length, List.getElem?_map, located]
      rfl
  refine ⟨follows.ranged.copyInto inside known, ?_, fun other bound => ?_, follows.past,
    fun first bound second further => ?_,
    fun other bound => ?_⟩
  · rw [Lineage.withOrigins, List.length_append, inherited, List.length_map, follows.length,
      copyInto_size follows.ranged.links inside]
  · obtain ⟨original, within, _, same⟩ := source bound
    rw [same]
    exact follows.begun original within
  · obtain ⟨left, within, bag, origin⟩ := source bound
    obtain ⟨right, among, other, event⟩ := source further
    rw [bag, other, origin, event]
    exact follows.shared left within right among
  · obtain ⟨original, within, bag, same⟩ := source bound
    have shared : (builders.copyInto copies root).2.1.rules other = builders.rules original := by
      rw [Builders.rules, bag, bags_copyInto]
      rfl
    rw [shared, same]
    exact follows.rules original within

theorem next {edit : Edit} (allowed : edit.Allowed builders) :
    (edit.apply builders).Follows (lineage.next builders edit) := by
  have ranged := follows.ranged.apply allowed
  cases edit with
  | create | createNamed | createBuiltin => exact follows.create
  | set id setting => exact (follows.advance []).modify setting.apply_bag ranged
  | setBuiltinBase id type => exact follows.create.modify (fun _ => rfl) ranged
  | pushField id field => exact (follows.advance []).modify (fun _ => rfl) ranged
  | pushRule id rule => exact (follows.advance []).pushRule allowed
  | replaceRules id more => exact follows.replaceRules allowed
  | copy root => exact (follows.advance []).copyInto allowed (by simp)
  | copyInto copies root => exact (follows.advance []).copyInto allowed.1 allowed.2

theorem nextAll {edits : List Edit} (allowed : builders.AllAllowed edits) :
    (builders.editAll edits).Follows (lineage.nextAll builders edits) := by
  induction edits generalizing builders lineage with
  | nil => exact follows
  | cons edit edits ih => exact ih (follows.next allowed.1) allowed.2

end Follows

/-- After any edits of an empty store, builders share their rules if and only if these go back to the same
event, the rules are those that the event began with and those pushed since, and all links and bags are there. -/
theorem rules_follow_origins {edits : List Edit} (allowed : ({} : Builders).AllAllowed edits) :
    let builders := ({} : Builders).editAll edits
    let lineage := ({} : Lineage).nextAll {} edits
    builders.Ranged ∧ lineage.origins.length = builders.size ∧
      (∀ first < builders.size, ∀ second < builders.size,
        builders.sharesRules first second = true ↔ lineage.origin first = lineage.origin second) ∧
      ∀ id < builders.size, builders.rules id = lineage.rules (lineage.origin id) := by
  have follows := Follows.empty.nextAll allowed
  refine ⟨follows.ranged, follows.length, fun first inside second within => ?_, follows.rules⟩
  rw [sharesRules, beq_iff_eq]
  exact follows.shared first inside second within

/-- A builder with a field is copied, the rules of the copy are replaced, and the copy is copied without its field. -/
def copiedTwice : List Edit :=
  [.create, .createBuiltin .int, .pushField 0 1, .pushRule 0 (.pattern "a"), .copy 0, .pushRule 2 (.pattern "b"),
    .replaceRules 2 [.pattern "c"], .copyInto [(3, 1)] 2, .pushRule 4 (.pattern "d")]

theorem copiedTwice_follows_origins : ({} : Builders).AllAllowed copiedTwice ∧
    let builders := ({} : Builders).editAll copiedTwice
    let lineage := ({} : Lineage).nextAll {} copiedTwice
    builders.Ranged ∧ lineage.origins.length = builders.size ∧
      (∀ first < builders.size, ∀ second < builders.size,
        builders.sharesRules first second = true ↔ lineage.origin first = lineage.origin second) ∧
      ∀ id < builders.size, builders.rules id = lineage.rules (lineage.origin id) := by
  have known : ∀ id copy, List.lookup id [(3, 1)] = some copy → copy = 1 := by
    intro id copy found
    rw [List.lookup_cons] at found
    split at found
    · exact (Option.some.inj found).symm
    · cases found
  have allowed : ({} : Builders).AllAllowed copiedTwice := by
    simp only [copiedTwice, AllAllowed, Edit.Allowed]
    refine ⟨trivial, trivial, ⟨by cbv, by cbv⟩, by cbv, by cbv, by cbv, by cbv,
      ⟨by cbv, fun id copy found => ?_⟩, by cbv, trivial⟩
    rw [known id copy found]
    cbv
  exact ⟨allowed, rules_follow_origins allowed⟩

/-- Each rule shows where its bag is shared, before and after the rules of the copy were replaced. -/
example : (List.range 5).map (({} : Builders).editAll copiedTwice).rules =
    [[.pattern "a", .pattern "b"], [], [.pattern "c", .pattern "d"], [], [.pattern "c", .pattern "d"]] := by cbv

end SchemaClasses.Builders
