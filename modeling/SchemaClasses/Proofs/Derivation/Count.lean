import SchemaClasses.Proofs.Derivation.Ledger
import SchemaClasses.Proofs.Derivation.Termination

/-! How many builders there can be. A node is given a builder once, and what is made then is at most two: a
builder for the node, and one more for an item of it or for the built-in type that it names. So whatever
is derived, twice the number of nodes without a builder pays for all that is made. -/

namespace SchemaClasses

def Task.Inside (nodes : Nodes) : Task → Prop
  | derive id _ => id < nodes.size
  | _ => True

namespace Stage

/-- The builders that are there, and those that may still come. -/
def promised (nodes : Nodes) (stage : Stage) : Nat :=
  stage.size + 2 * nodes.pending stage.memo

theorem pending_remember {nodes : Nodes} {stage : Stage} {id : NodeId} {builder : BuilderId} :
    nodes.pending (stage.remember id builder).memo ≤ nodes.pending stage.memo := by
  refine List.countP_mono_left fun other _ new => ?_
  by_cases same : other = id
  · subst same
    simp [remember] at new
  · simpa only [remember, Function.update_of_ne same] using new

end Stage

namespace Run
variable {nodes : Nodes} {busy : List BuilderId} {task : Task} {stage later : Stage} {outcome : Expansion}
  {made : List Origin}

/-- What a run makes is paid for by the nodes that get a builder. What the entries of a node make is paid for
when the node gets its own. -/
theorem made_le (formed : nodes.Formed) (run : Run nodes busy task stage outcome later made)
    (inside : task.Inside nodes) :
    made.length + 2 * nodes.pending later.memo ≤ 2 * nodes.pending stage.memo + task.origins.length := by
  induction run with
  | known | finished | cut | unresolved | empty => simp [Task.origins]
  | @shared busy id target stage referenced builder later made new plan run ih =>
    have less : nodes.pending (later.remember id builder).memo ≤ nodes.pending later.memo := Stage.pending_remember
    have paid := ih (formed.share_lt plan)
    simp only [Task.origins, List.length_nil] at paid ⊢
    omega
  | @opened busy id target stage notices wrapped entries builder started filled opened later made new plan
    start unwrap run ih =>
    have fewer : nodes.pending opened.memo < nodes.pending stage.memo := by
      rw [Stage.opened_memo start unwrap]
      exact Nodes.pending_lt inside new
    have few := Nodes.plan_origins plan
    have own : (startOrigins id target).length ≤ 1 := by cases target <;> simp [startOrigins]
    have paid := ih trivial
    simp only [Task.origins, List.length_append, List.length_nil] at few paid ⊢
    omega
  | written written =>
    rw [Stage.write_memo written, Task.origins]
    omega
  | ask listed run ih => exact ih (formed.ask_lt listed)
  | embed listed run ih => exact ih (formed.embeds_lt listed)
  | append listed run ih => exact ih trivial
  | next run remaining ih rest =>
    have first := ih trivial
    have others := rest trivial
    simp only [Task.origins, List.flatMap_cons, List.length_append] at first others ⊢
    omega
  | expanded outside run ih => exact ih trivial
  | leaf isGroup listed run ih => exact ih (formed.leaf_lt isGroup listed)
  | group listed run ih => exact ih trivial
  | more run remaining ih rest =>
    have first := ih trivial
    have others := rest trivial
    simp only [Task.origins, List.length_append, List.length_nil] at first others ⊢
    omega

/-- A task that writes nowhere else makes no more builders than were promised. -/
theorem promised_le (formed : nodes.Formed) (run : Run nodes busy task stage outcome later made)
    (inside : task.Inside nodes) (whole : stage.Whole) (target : task.target? = none) :
    later.promised nodes ≤ stage.promised nodes := by
  have paid := run.made_le formed inside
  have size := (run.growth whole (target ▸ Stage.nowhere)).size
  have none : task.origins = [] := by
    cases task with
    | entry | entries => cases target
    | derive | expand | part | parts => rfl
  rw [none, List.length_nil] at paid
  unfold Stage.promised
  omega

end Run
end SchemaClasses
