import SchemaClasses.Proofs.Derivation.Occurrences

/-! Choices in the end. After calls in any order each choice in the content of a node has one rule in the
builder of the node, and the rule names all fields that have a name, but for fields that are late. -/

namespace SchemaClasses

/-- A task that may be begun with, for any node. -/
def Task.Asked : Task → Prop
  | derive _ none | expand [] _ => True
  | _ => False

namespace Task.Asked
variable {nodes : Nodes} {task : Task}

theorem target (asked : task.Asked) : task.target? = none := by
  cases task with
  | derive id target => cases target <;> first | rfl | cases asked
  | expand path id => rfl
  | entry _ _ _ | entries _ _ _ | part _ _ | parts _ _ => cases asked

theorem adds (asked : task.Asked) {id : NodeId} : task.adds nodes id = [] := by
  cases task with
  | derive | expand => rfl
  | entry | entries | part | parts => exact asked.elim

end Task.Asked

theorem Task.Standalone.asked {nodes : Nodes} {task : Task} (standalone : task.Standalone nodes) : task.Asked := by
  cases task with
  | derive id target => cases target <;> [trivial; exact standalone.elim]
  | expand path id => cases path <;> [trivial; exact standalone.elim]
  | entry | entries | part | parts => exact standalone.elim

/-- What holds between two tasks: nothing is being filled, and every builder has its name. -/
structure Stage.Settled (nodes : Nodes) (stage : Stage) : Prop where
  whole : stage.Whole
  shared : stage.Shared nodes
  closed : stage.Closed nodes []
  titled : stage.Titled nodes

namespace Stage.Settled
variable {nodes : Nodes} {stage later : Stage} {task : Task} {outcome : Expansion} {made : List Origin}

theorem empty : Settled nodes { builders := {}, memo := fun _ => none } where
  whole := .empty
  shared _ _ found := nomatch found
  closed _ _ found := nomatch found
  titled _ _ _ found := nomatch found

theorem underway (settled : stage.Settled nodes) (target : task.target? = none) : Underway nodes [] stage task where
  whole := settled.whole
  range _ member := absurd member List.not_mem_nil
  held _ filled := by rw [target] at filled; cases filled
  embedded id builder same := by subst same; cases target

theorem after (settled : stage.Settled nodes) (formed : nodes.Formed) (run : Run nodes [] task stage outcome later made)
    (target : task.target? = none) : later.Settled nodes where
  whole := ((settled.underway target).grows run).whole
  shared := run.keeps_shared settled.shared
  closed := run.closed (settled.underway target) settled.shared settled.closed
  titled id builder owns found := by
    have underway := settled.underway target
    cases early : stage.memo id with
    | none => exact run.titled formed underway owns early found
    | some known =>
      cases (run.keeps early).symm.trans found
      have kept := (underway.grows run).get builder (settled.whole.range id builder early)
      rw [kept (by rw [target]; exact (Option.some_ne_none _).symm)]
      exact settled.titled id builder owns early

/-- A task may begin wherever nothing is being filled. -/
theorem attended (settled : stage.Settled nodes) (asked : task.Asked) {final : Stage} (ahead : final.Ahead stage []) :
    Attended nodes final [] stage task where
  underway := settled.underway asked.target
  ahead := ahead
  shared := settled.shared
  closed := settled.closed
  called _ _ _ _ member := absurd member List.not_mem_nil
  filling := by
    cases task with
    | derive id target => cases target <;> [trivial; exact asked.elim]
    | expand => trivial
    | entry | entries | part | parts => exact asked.elim
  near := by
    cases task with
    | derive | expand => exact fun _ _ _ _ _ _ _ _ _ _ member => absurd member List.not_mem_nil
    | entry | entries | part | parts => exact asked.elim

end Stage.Settled

/-- What tasks lead to that are begun one after the other, and the origins of all builders in order. -/
inductive Answered (nodes : Nodes) : Stage → List Origin → Prop where
  | start : Answered nodes { builders := {}, memo := fun _ => none } []
  | more {stage ledger task outcome later made} (answered : Answered nodes stage ledger)
      (run : Run nodes [] task stage outcome later made) (asked : task.Asked) : Answered nodes later (ledger ++ made)

namespace Answered
variable {nodes : Nodes} {stage : Stage} {ledger : List Origin} (formed : nodes.Formed)
include formed

theorem settled (answered : Answered nodes stage ledger) : stage.Settled nodes := by
  induction answered with
  | start => exact .empty
  | more answered run asked ih => exact ih.after formed run asked.target

/-- All choices that were met from the start, and the rules that they left. -/
theorem logged (answered : Answered nodes stage ledger) {final : Stage} (titled : final.Titled nodes)
    (shared : final.Shared nodes) (ahead : final.Ahead stage []) :
    ∃ occurrences, Logged nodes final (.parts [] []) { builders := {}, memo := fun _ => none } stage occurrences := by
  induction answered with
  | start => exact ⟨[], .nothing (fun _ => rfl) rfl fun _ => rfl⟩
  | more answered run asked ih =>
    have settled := answered.settled formed
    obtain ⟨early, first⟩ := ih (ahead.before run (settled.underway asked.target))
    have attended := settled.attended asked (ahead.before run (settled.underway asked.target))
    obtain ⟨late, last⟩ := (run.recorded formed titled shared attended ahead).logged
    exact ⟨_, first.trans last (fun id => by rw [asked.adds]; rfl) (fun _ adds => absurd asked.adds adds)
      (fun _ known => absurd rfl known) fun _ => run.keeps_known⟩

end Answered

namespace Derived
variable {nodes : Nodes} {stage : Stage} {ledger : List Origin}

theorem answered (derived : Derived nodes stage ledger) : Answered nodes stage ledger := by
  induction derived with
  | start => exact .start
  | more _ run standalone ih => exact ih.more run standalone.asked

variable (formed : nodes.Formed)
include formed

theorem settled (derived : Derived nodes stage ledger) : stage.Settled nodes :=
  derived.answered.settled formed

theorem logged (derived : Derived nodes stage ledger) {final : Stage} (titled : final.Titled nodes)
    (shared : final.Shared nodes) (ahead : final.Ahead stage []) :
    ∃ occurrences, Logged nodes final (.parts [] []) { builders := {}, memo := fun _ => none } stage occurrences :=
  derived.answered.logged formed titled shared ahead

end Derived

namespace Schema

/-- After calls in any order, the builder of a node has one rule for each choice in the content of the node, in
the order in which the choices were met. A rule names all fields of its choice that have a name, in order,
unless a field is late; a late repeated use is not named. -/
theorem choice_options {schema : Schema} (loaded : schema.Loaded) (acyclic : schema.nodes.Acyclic) {calls : List Call}
    (allowed : ∀ call ∈ calls, call.Allowed schema) :
    ∃ final, schema.After calls final ∧ ∃ occurrences : List (NodeId × List NodeId),
      (∀ id, final.builder? id ≠ none → contentOf occurrences id = schema.nodes.contentChoices id) ∧
      ∀ builder, List.Forall₂ (fun occurrence options =>
          Offered schema.nodes final.stage occurrence.1 occurrence.2 options ∧
            ((∀ leaf ∈ occurrence.2, ¬schema.nodes.Late final.builder? leaf occurrence.1) →
              options = occurrence.2.filterMap final.stage.fieldName?))
        (occurrences.filter fun occurrence => final.builder? occurrence.1 = some builder)
        (final.builders.choices builder) := by
  obtain ⟨final, answered⟩ := after_total loaded acyclic allowed
  obtain ⟨ledger, derived⟩ := (answered.reached loaded allowed).derived
  have settled := derived.settled loaded.formed
  have ahead : final.stage.Ahead final.stage [] := ⟨fun _ _ found => found, fun _ _ _ => rfl⟩
  obtain ⟨occurrences, logged⟩ := derived.logged loaded.formed settled.titled settled.shared ahead
  refine ⟨final, answered, occurrences, fun id known => ?_, fun builder => ?_⟩
  · rw [logged.content, if_pos ⟨rfl, known⟩]
    rfl
  · obtain ⟨added, recorded, offered⟩ := logged.recorded builder
    have all : final.builders.choices builder = added := recorded
    rw [all]
    exact offered.imp fun _ _ offered => ⟨offered, offered.exact⟩

theorem choice_options_entwined : entwined.Loaded ∧ entwined.nodes.Acyclic ∧
    (∀ call ∈ [Call.classBuilders], call.Allowed entwined) ∧
      ∃ final, entwined.After [.classBuilders] final ∧ ∃ occurrences : List (NodeId × List NodeId),
        (∀ id, final.builder? id ≠ none → contentOf occurrences id = entwined.nodes.contentChoices id) ∧
        ∀ builder, List.Forall₂ (fun occurrence options =>
            Offered entwined.nodes final.stage occurrence.1 occurrence.2 options ∧
              ((∀ leaf ∈ occurrence.2, ¬entwined.nodes.Late final.builder? leaf occurrence.1) →
                options = occurrence.2.filterMap final.stage.fieldName?))
          (occurrences.filter fun occurrence => final.builder? occurrence.1 = some builder)
          (final.builders.choices builder) := by
  have allowed : ∀ call ∈ [Call.classBuilders], call.Allowed entwined := fun call member =>
    entwined_allowed call (List.mem_cons_of_mem _ (List.mem_cons_of_mem _ member))
  exact ⟨entwined_loaded, entwined_acyclic, allowed, choice_options entwined_loaded entwined_acyclic allowed⟩

/-- The content of the type inside of `a` is a choice between `a` and `b`, but its rule has `b` alone. -/
theorem choice_option_missing : ∃ final, entwined.After [.classBuilders] final ∧ final.builder? 5 = some 2 ∧
    entwined.nodes.contentChoices 5 = [[9, 10]] ∧ final.builders.choices 2 = [["b"]] ∧
      [9, 10].filterMap final.stage.fieldName? = ["a", "b"] := by
  have outcome : ((entwined.answerAll [.classBuilders]).run entwined.derivation).map (fun outcome =>
      (outcome.2.builder? 5, outcome.2.builders.choices 2, [9, 10].filterMap outcome.2.stage.fieldName?)) =
        some (some 2, [["b"]], ["a", "b"]) := by decide +kernel
  obtain ⟨⟨_, final⟩, answered, same⟩ := Option.map_eq_some_iff.mp outcome
  simp only [Prod.mk.injEq] at same
  exact ⟨final, answered, same.1, by cbv, same.2.1, same.2.2⟩

end Schema

end SchemaClasses
