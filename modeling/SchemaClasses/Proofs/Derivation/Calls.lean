import SchemaClasses.Proofs.Derivation.Termination
import SchemaClasses.Proofs.Schema.Loading

/-! Calls that derive builders of a schema, one after the other. Every call has a result, and what a
sequence of calls leaves behind comes of runs that start from nothing. -/

namespace SchemaClasses

/-- A task that is not part of another. -/
def Task.Standalone (nodes : Nodes) : Task → Prop
  | derive id none => ¬nodes.Embedded id
  | expand [] _ => True
  | _ => False

/-- What runs one after the other lead to, and the origins of all builders in order. -/
inductive Derived (nodes : Nodes) : Stage → List Origin → Prop where
  | start : Derived nodes { builders := {}, memo := fun _ => none } []
  | more {stage ledger task outcome later made} (derived : Derived nodes stage ledger)
      (run : Run nodes [] task stage outcome later made) (standalone : task.Standalone nodes) :
      Derived nodes later (ledger ++ made)

theorem Task.Standalone.target {nodes : Nodes} {task : Task} (standalone : task.Standalone nodes) :
    task.target? = none := by
  cases task with
  | derive id target => cases target <;> first | rfl | cases standalone
  | expand path id => rfl
  | entry _ _ _ | entries _ _ _ | part _ _ | parts _ _ => cases standalone

namespace Schema

/-- A declaration directly in the schema that has a builder. -/
def IsTop (schema : Schema) (id : NodeId) : Prop :=
  ∃ kind ∈ [Kind.element, .attr, .complexType, .simpleType], id ∈ (schema.node schema.root).childrenOf kind

inductive Call where
  | builder (id : NodeId)
  | classBuilders
  | tags

/-- Only declarations on top are asked for by number. -/
def Call.Allowed (schema : Schema) : Call → Prop
  | builder id => schema.IsTop id
  | classBuilders | tags => True

def answer (schema : Schema) : Call → Derive Unit
  | .builder id => discard (schema.builder id)
  | .classBuilders => discard schema.classBuilders
  | .tags => discard schema.tags

def answerAll (schema : Schema) (calls : List Call) : Derive Unit :=
  calls.forM schema.answer

/-- What calls lead to that start from nothing. -/
def After (schema : Schema) (calls : List Call) (final : Derivation) : Prop :=
  (schema.answerAll calls).Gives schema.derivation () final

/-- A derivation that further calls may start from. -/
structure Reached (schema : Schema) (derivation : Derivation) : Prop where
  ready : derivation.Ready schema.nodes
  derived : ∃ ledger, Derived schema.nodes derivation.stage ledger

variable {schema : Schema} {before after : Derivation}

theorem derivation_stage : schema.derivation.stage = { builders := {}, memo := fun _ => none } := by
  simp only [Derivation.stage, Stage.mk.injEq]
  refine ⟨rfl, funext fun id => ?_⟩
  simp only [Derivation.builder?, derivation, Derivation.ofNodes, Array.getD_eq_getD_getElem?, Array.getElem?_replicate]
  split <;> rfl

theorem reached_start : schema.Reached schema.derivation := by
  refine ⟨⟨by simp [Derivation.Fits, derivation, Derivation.ofNodes], ?_⟩, [], ?_⟩
  · rw [derivation_stage]
    exact .empty
  · rw [derivation_stage]
    exact .start

theorem Reached.run (reached : schema.Reached before) (fits : after.Fits schema.nodes) {task : Task}
    {outcome : Expansion} {made : List Origin} (run : Run schema.nodes [] task before.stage outcome after.stage made)
    (standalone : task.Standalone schema.nodes) : schema.Reached after := by
  obtain ⟨ready, _, derived⟩ := reached
  exact ⟨⟨fits, (run.growth ready.whole (standalone.target ▸ Stage.nowhere)).whole⟩, _, derived.more run standalone⟩

theorem IsTop.lt {id : NodeId} (loaded : schema.Loaded) (top : schema.IsTop id) : id < schema.nodes.size := by
  obtain ⟨_, _, member⟩ := top
  exact loaded.formed.child_lt member

theorem IsTop.not_embedded {id : NodeId} (loaded : schema.Loaded) (top : schema.IsTop id) :
    ¬schema.nodes.Embedded id := by
  obtain ⟨_, _, member⟩ := top
  exact loaded.formed.not_embedded_of_schema (loaded.formed.child_parent member) loaded.root_kind

/-- Steps that can be taken wherever a derivation stands. -/
def Answers (schema : Schema) {α : Type} (steps : Derive α) : Prop :=
  ∀ before, schema.Reached before →
    (∀ result after, steps.Gives before result after → schema.Reached after) ∧
      (schema.nodes.Acyclic → ∃ result after, steps.Gives before result after)

section Answers
variable {α β : Type} {first : Derive α}

theorem Answers.pure {value : α} : schema.Answers (Pure.pure value : Derive α) := by
  intro before reached
  refine ⟨fun result after gives => ?_, fun _ => ⟨_, _, rfl⟩⟩
  obtain ⟨_, rfl⟩ := gives.pure
  exact reached

theorem Answers.bind {rest : α → Derive β} (answers : schema.Answers first)
    (remaining : ∀ value, schema.Answers (rest value)) :
    schema.Answers (first >>= rest) := by
  intro before reached
  constructor
  · intro result after gives
    obtain ⟨value, middle, found, last⟩ := gives.bind
    exact (remaining value middle ((answers before reached).1 value middle found)).1 result after last
  · intro acyclic
    obtain ⟨value, middle, found⟩ := (answers before reached).2 acyclic
    obtain ⟨result, after, last⟩ := (remaining value middle ((answers before reached).1 value middle found)).2 acyclic
    exact ⟨result, after, found.then last⟩

theorem Answers.map {f : α → β} (answers : schema.Answers first) : schema.Answers (f <$> first) := by
  rw [map_eq_pure_bind]
  exact answers.bind fun _ => .pure

end Answers

theorem pending_bound (memo : NodeId → Option BuilderId) :
    schema.nodes.pending memo * (2 * schema.nodes.size + 3) + 2 * schema.nodes.size + 2 ≤ schema.depth := by
  have pending : schema.nodes.pending memo ≤ schema.nodes.size := Nodes.pending_le_size
  have scaled := Nat.mul_le_mul_right (2 * schema.nodes.size + 3) pending
  rw [depth, Nat.succ_mul schema.nodes.size]
  omega

theorem builder_answers (loaded : schema.Loaded) {id : NodeId} (top : schema.IsTop id) :
    schema.Answers (schema.builder id) := by
  intro before reached
  constructor
  · intro builder after gives
    obtain ⟨fits, runs⟩ := (Recursion.upTo_sound loaded.formed
      schema.depth).builder reached.ready.fits (top.lt loaded) gives
    obtain ⟨made, run⟩ := runs []
    exact reached.run fits run (top.not_embedded loaded)
  · intro acyclic
    have bound := schema.pending_bound before.stage.memo
    exact (Recursion.upTo_total loaded.formed acyclic schema.depth).builder [] id none reached.ready Stage.nowhere
      (top.lt loaded) .nil
      (by simp only [List.length_nil]; omega)

section Fields
variable (loaded : schema.Loaded) {id : NodeId} (inside : id < schema.nodes.size)
  (isGroup : (schema.nodes.kindOf id).isGroup)
include loaded inside isGroup

theorem fields_run {fields : List BuilderId} (fits : before.Fits schema.nodes)
    (gives : (schema.fields id).Gives before fields after) :
    after.Fits schema.nodes ∧ ∃ outcome made, outcome.fields = fields ∧
      Run schema.nodes [] (.expand [] id) before.stage outcome after.stage made := by
  obtain ⟨content, middle, expanded, gives⟩ := gives.bind
  obtain ⟨rfl, rfl⟩ := gives.pure
  obtain ⟨fits, runs⟩ := (Recursion.upTo_sound loaded.formed schema.depth).expansion fits inside isGroup expanded
  obtain ⟨made, run⟩ := runs []
  exact ⟨fits, content, made, rfl, run⟩

theorem fields_total (acyclic : schema.nodes.Acyclic) (ready : before.Ready schema.nodes) :
    ∃ fields after, (schema.fields id).Gives before fields after := by
  have bound := schema.pending_bound before.stage.memo
  obtain ⟨content, after, expanded⟩ :=
    (Recursion.upTo_total loaded.formed acyclic schema.depth).expansion [] id ready .nil
    (List.forall_mem_nil _) inside isGroup (by simp only [List.length_nil]; omega)
  exact ⟨_, _, expanded.then rfl⟩

end Fields

theorem classBuilders_answers (loaded : schema.Loaded) : schema.Answers schema.classBuilders := by
  intro before reached
  constructor
  · intro roots after gives
    obtain ⟨fits, _, _, _, run⟩ := fields_run loaded loaded.root_lt loaded.root_isGroup reached.ready.fits gives
    exact reached.run fits run trivial
  · intro acyclic
    exact fields_total loaded loaded.root_lt loaded.root_isGroup acyclic reached.ready

theorem tags_answers (loaded : schema.Loaded) : schema.Answers schema.tags := by
  have tagged (ids : List NodeId) (inside : ∀ id ∈ ids, schema.IsTop id) (tags : Entries BuilderId) :
      schema.Answers (ids.foldlM schema.tagged tags) := by
    induction ids generalizing tags with
    | nil => exact .pure
    | cons id ids ih =>
      rw [List.foldlM_cons]
      refine Answers.bind ?_ (ih fun id member => inside id (List.mem_cons_of_mem _ member))
      unfold Schema.tagged
      split
      · exact (builder_answers loaded (inside id List.mem_cons_self)).bind fun _ => .pure
      · exact .pure
  exact tagged _ (fun id member => ⟨.element, by simp, member⟩) []

theorem answerAll_answers (loaded : schema.Loaded) {calls : List Call} (allowed : ∀ call ∈ calls, call.Allowed schema) :
    schema.Answers (schema.answerAll calls) := by
  induction calls with
  | nil => exact .pure
  | cons call calls ih =>
    refine Answers.bind ?_ fun _ => ih fun call member => allowed call (List.mem_cons_of_mem _ member)
    have own := allowed call List.mem_cons_self
    cases call with
    | builder id => exact (builder_answers loaded own).map
    | classBuilders => exact (classBuilders_answers loaded).map
    | tags => exact (tags_answers loaded).map

/-- Without circles of references every sequence of calls has an answer. -/
theorem after_total (loaded : schema.Loaded) (acyclic : schema.nodes.Acyclic) {calls : List Call}
    (allowed : ∀ call ∈ calls, call.Allowed schema) : ∃ final, schema.After calls final := by
  obtain ⟨_, final, answers⟩ := (answerAll_answers loaded allowed _ reached_start).2 acyclic
  exact ⟨final, answers⟩

theorem After.reached {calls : List Call} {final : Derivation} (answered : schema.After calls final)
    (loaded : schema.Loaded) (allowed : ∀ call ∈ calls, call.Allowed schema) : schema.Reached final :=
  (answerAll_answers loaded allowed _ reached_start).1 _ _ answered

theorem entwined_acyclic : entwined.nodes.Acyclic :=
  Nodes.acyclic_of_all (by decide)

theorem entwined_allowed : ∀ call ∈ [Call.builder 4, .tags, .classBuilders], call.Allowed entwined := by
  intro call member
  simp only [List.mem_cons, List.not_mem_nil, or_false] at member
  rcases member with rfl | rfl | rfl
  · exact ⟨.element, by decide, by decide⟩
  · trivial
  · trivial

end Schema
end SchemaClasses
