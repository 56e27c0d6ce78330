import SchemaClasses.Proofs.Definition.Continuing
import SchemaClasses.Proofs.Derivation.ClassNames
import SchemaClasses.Proofs.Derivation.Count

/-! What may be asked of a schema, for any of its nodes and in any order. Every request has a reply unless it is for
definitions that have no end, nothing that is there when it comes is changed by it, and there are never more than
two builders for each node. -/

namespace SchemaClasses

/-- A derivation that anything may be asked of. -/
structure Derivation.Tenable (nodes : Nodes) (derivation : Derivation) : Prop where
  fits : derivation.Fits nodes
  settled : derivation.stage.Settled nodes
  range : derivation.stage.builders.InRange
  classed : derivation.stage.Classed nodes
  answered : ∃ ledger, Answered nodes derivation.stage ledger

theorem Derivation.Tenable.ready {nodes : Nodes} {derivation : Derivation} (tenable : derivation.Tenable nodes) :
    derivation.Ready nodes :=
  ⟨tenable.fits, tenable.settled.whole⟩

/-- A stage that goes on from another. What is there stays as it is, and no more comes than was promised. -/
structure Stage.Extends (nodes : Nodes) (stage later : Stage) : Prop where
  builders : stage.builders.Continues later.builders
  memo : ∀ id builder, stage.memo id = some builder → later.memo id = some builder
  promised : later.promised nodes ≤ stage.promised nodes

namespace Stage.Extends
variable {nodes : Nodes} {stage middle later : Stage}

theorem refl : stage.Extends nodes stage := ⟨.refl, fun _ _ found => found, Nat.le_refl _⟩

theorem trans (first : stage.Extends nodes middle) (rest : middle.Extends nodes later) : stage.Extends nodes later where
  builders := first.builders.trans rest.builders
  memo id builder found := rest.memo id builder (first.memo id builder found)
  promised := rest.promised.trans first.promised

end Stage.Extends

namespace Run
variable {nodes : Nodes} {busy : List BuilderId} {task : Task} {stage later : Stage} {outcome : Expansion}
  {made : List Origin}

theorem extended (run : Run nodes busy task stage outcome later made) (formed : nodes.Formed) (whole : stage.Whole)
    (inside : task.Inside nodes) (target : task.target? = none) : stage.Extends nodes later where
  builders := by
    have grows := run.growth whole (target ▸ Stage.nowhere)
    have nowhere (builder : BuilderId) : task.target? ≠ some builder := target ▸ (Option.some_ne_none _).symm
    exact ⟨grows.le, fun builder within => grows.get builder within (nowhere builder),
      fun builder within => grows.rules builder within (nowhere builder)⟩
  memo _ _ := run.keeps
  promised := run.promised_le formed inside whole target

/-- A task whose members all have builders has nothing to do. -/
theorem still (run : Run nodes busy task stage outcome later made) (target : task.target? = none)
    (known : ∀ id ∈ task.members nodes, stage.memo id ≠ none) : later = stage := by
  induction run with
  | known | finished | cut | unresolved | empty => rfl
  | shared new | opened new => exact absurd new (known _ List.mem_cons_self)
  | written | ask | embed | append | next => cases target
  | expanded outside run ih =>
    rw [Task.members, Nodes.members_of_not_mem outside] at known
    exact ih rfl known
  | leaf isGroup listed run ih => exact ih rfl known
  | group listed run ih => exact ih rfl known
  | more run remaining ih rest =>
    rw [Task.members, List.flatMap_cons] at known
    obtain ⟨first, others⟩ := List.forall_mem_append.mp known
    obtain rfl := ih rfl first
    exact rest rfl others

end Run

namespace Schema

inductive Request where
  | builder (id : NodeId)
  | fields (id : NodeId)
  | classBuilders
  | tags
  | definitions (style : Style)

def Request.Inside (schema : Schema) : Request → Prop
  | builder id | fields id => id < schema.nodes.size
  | classBuilders | tags | definitions _ => True

inductive Reply where
  | builder (builder : BuilderId)
  | builders (builders : List BuilderId)
  | tags (tags : Entries BuilderId)
  | definitions (definitions : List Definition)

def reply (schema : Schema) : Request → Derive Reply
  | .builder id => .builder <$> schema.builder id
  | .fields id => .builders <$> schema.fields id
  | .classBuilders => .builders <$> schema.classBuilders
  | .tags => .tags <$> schema.tags
  | .definitions style => .definitions <$> schema.definitions style

def replies (schema : Schema) (requests : List Request) : Derive (List Reply) :=
  requests.mapM schema.reply

/-- A request for builders alone. -/
def Request.Derives : Request → Prop
  | builder _ | fields _ | classBuilders | tags => True
  | definitions _ => False

/-- Definitions are written down only if their classes have no field whose type has no end. -/
def Request.Ends (schema : Schema) (derivation : Derivation) : Request → Prop
  | builder _ | fields _ | classBuilders | tags => True
  | definitions _ => schema.RenderingEnds derivation

/-- Each of the requests ends when its turn comes. -/
def AllEnd (schema : Schema) : List Request → Derivation → Prop
  | [], _ => True
  | request :: requests, derivation => request.Ends schema derivation ∧
      ∀ reply after, (schema.reply request).Gives derivation reply after → schema.AllEnd requests after

/-- Steps that can be taken at any time. What is there stays as it is. -/
structure Safe (schema : Schema) {α : Type} (steps : Derive α) : Prop where
  grows : ∀ {before : Derivation} {result after}, before.Tenable schema.nodes → steps.Gives before result after →
    after.Tenable schema.nodes ∧ before.stage.Extends schema.nodes after.stage

/-- Steps that have a result where no references lead in a circle, the same whenever they are taken again, and
that change nothing then. -/
structure Steady (schema : Schema) {α : Type} (steps : Derive α) : Prop extends schema.Safe steps where
  total : schema.nodes.Acyclic → ∀ {before : Derivation}, before.Tenable schema.nodes →
    ∃ result after, steps.Gives before result after
  repeats : schema.nodes.Acyclic → ∀ {before : Derivation} {result after later}, before.Tenable schema.nodes →
    steps.Gives before result after → later.Tenable schema.nodes → after.stage.Extends schema.nodes later.stage →
      ∃ again, steps.Gives later result again ∧ again.stage = later.stage

variable {schema : Schema} {before after later : Derivation}

section Steps
variable {α β : Type} {first : Derive α}

theorem Safe.pure {value : α} : schema.Safe (Pure.pure value : Derive α) where
  grows tenable gives := by
    obtain ⟨_, rfl⟩ := gives.pure
    exact ⟨tenable, .refl⟩

theorem Safe.bind {rest : α → Derive β} (safe : schema.Safe first) (remaining : ∀ value, schema.Safe (rest value)) :
    schema.Safe (first >>= rest) where
  grows tenable gives := by
    obtain ⟨value, middle, found, last⟩ := gives.bind
    obtain ⟨tenable, grown⟩ := safe.grows tenable found
    obtain ⟨tenable, further⟩ := (remaining value).grows tenable last
    exact ⟨tenable, grown.trans further⟩

theorem Steady.pure {value : α} : schema.Steady (Pure.pure value : Derive α) where
  toSafe := .pure
  total _ _ _ := ⟨_, _, rfl⟩
  repeats _ _ _ _ _ _ gives _ _ := by
    obtain ⟨rfl, _⟩ := gives.pure
    exact ⟨_, rfl, rfl⟩

/-- The second steps are taken again where the first ones, taken again, have changed nothing. -/
theorem Steady.bind {rest : α → Derive β} (steady : schema.Steady first)
    (remaining : ∀ value, schema.Steady (rest value)) :
    schema.Steady (first >>= rest) where
  toSafe := steady.toSafe.bind fun value => (remaining value).toSafe
  total acyclic _ tenable := by
    obtain ⟨value, middle, found⟩ := steady.total acyclic tenable
    obtain ⟨result, after, last⟩ := (remaining value).total acyclic (steady.grows tenable found).1
    exact ⟨result, after, found.then last⟩
  repeats acyclic _ _ _ _ tenable gives held extended := by
    obtain ⟨value, middle, found, last⟩ := gives.bind
    obtain ⟨within, _⟩ := steady.grows tenable found
    obtain ⟨_, further⟩ := (remaining value).grows within last
    obtain ⟨again, repeated, same⟩ := steady.repeats acyclic tenable found held (further.trans extended)
    obtain ⟨final, completed, unchanged⟩ :=
      (remaining value).repeats acyclic within last (steady.grows held repeated).1 (same ▸ extended)
    exact ⟨final, repeated.then completed, unchanged.trans same⟩

theorem Steady.map {f : α → β} (steady : schema.Steady first) : schema.Steady (f <$> first) := by
  rw [map_eq_pure_bind]
  exact steady.bind fun _ => .pure

end Steps

theorem tenable_start : schema.derivation.Tenable schema.nodes where
  fits := reached_start.ready.fits
  settled := by
    rw [derivation_stage]
    exact .empty
  range _ inside := absurd inside (Nat.not_lt_zero _)
  classed := by
    rw [derivation_stage]
    exact .empty
  answered := by
    rw [derivation_stage]
    exact ⟨[], .start⟩

/-- A run that may be begun with leads from one tenable derivation to another. -/
theorem tenable_run (loaded : schema.Loaded) (tenable : before.Tenable schema.nodes)
    (fits : after.Fits schema.nodes) {task : Task} {outcome : Expansion} {made : List Origin}
    (run : Run schema.nodes [] task before.stage outcome after.stage made) (inside : task.Inside schema.nodes)
    (asked : task.Asked) :
    after.Tenable schema.nodes ∧ before.stage.Extends schema.nodes after.stage := by
  have whole := tenable.settled.whole
  have target := asked.target
  obtain ⟨_, answered⟩ := tenable.answered
  refine ⟨⟨fits, ?_, ?_, ?_, _, answered.more run asked⟩, run.extended loaded.formed whole inside target⟩
  · exact tenable.settled.after loaded.formed run target
  · exact run.inRange whole (target ▸ Stage.nowhere) tenable.range
  · exact tenable.classed.after tenable.settled loaded.formed run target

theorem builder_found (loaded : schema.Loaded) {depth : Nat} {id : NodeId} (inside : id < schema.nodes.size)
    (fits : before.Fits schema.nodes) {target : Option BuilderId} {builder : BuilderId}
    (gives : ((Recursion.upTo schema.nodes depth).builder id target).Gives before builder after) :
    after.builder? id = some builder := by
  obtain ⟨_, runs⟩ := (Recursion.upTo_sound loaded.formed depth).builder fits inside gives
  obtain ⟨_, run⟩ := runs []
  obtain ⟨_, ⟨⟩, found⟩ := run.answer
  exact found

section Answers
variable (loaded : schema.Loaded)
include loaded

theorem builder_steady {depth : Nat} {id : NodeId} (inside : id < schema.nodes.size)
    (enough : ∀ memo, schema.nodes.pending memo * (2 * schema.nodes.size + 3) + schema.nodes.size + 1 ≤ depth) :
    schema.Steady ((Recursion.upTo schema.nodes depth).builder id none) where
  total acyclic _ tenable :=
    (Recursion.upTo_total loaded.formed acyclic depth).builder [] id none tenable.ready Stage.nowhere inside .nil
    (by simpa using enough _)
  grows tenable gives := by
    obtain ⟨fits, runs⟩ := (Recursion.upTo_sound loaded.formed depth).builder tenable.fits inside gives
    obtain ⟨made, run⟩ := runs []
    exact tenable_run loaded tenable fits run inside trivial
  repeats _ before result _ later tenable gives _ extended := by
    have found := builder_found loaded inside tenable.fits gives
    obtain ⟨rest, rfl⟩ : ∃ rest, depth = rest + 1 :=
      Nat.exists_eq_add_one.mpr (Nat.lt_of_lt_of_le (Nat.succ_pos _) (enough before.builder?))
    exact ⟨later, Derive.derive_known (extended.memo id result found), rfl⟩

/-- A group stands for the same fields whenever it is asked for, as all its members have builders. -/
theorem group_steady {id : NodeId} (inside : id < schema.nodes.size) (isGroup : (schema.nodes.kindOf id).isGroup) :
    schema.Steady (schema.fields id) where
  total acyclic _ tenable := fields_total loaded inside isGroup acyclic tenable.ready
  grows tenable gives := by
    obtain ⟨fits, _, _, _, run⟩ := fields_run loaded inside isGroup tenable.fits gives
    exact tenable_run loaded tenable fits run trivial trivial
  repeats acyclic _ _ after later tenable gives held extended := by
    obtain ⟨_, content, _, rfl, run⟩ := fields_run loaded inside isGroup tenable.fits gives
    obtain ⟨fields, again, repeated⟩ := fields_total loaded inside isGroup acyclic held.ready
    obtain ⟨_, recontent, _, rfl, rerun⟩ := fields_run loaded inside isGroup held.fits repeated
    have known (member : NodeId) (listed : member ∈ (Task.expand [] id).members schema.nodes) :
        later.stage.memo member = after.stage.memo member := by
      obtain ⟨builder, found⟩ := Option.ne_none_iff_exists'.mp (run.members_known listed)
      rw [found]
      exact extended.memo member builder found
    have same : again.stage = later.stage := rerun.still rfl fun member listed => by
      rw [known member listed]
      exact run.members_known listed
    have fields : recontent.fields.map some = content.fields.map some := by
      rw [rerun.fields, run.fields, same]
      exact List.map_congr_left known
    rw [← List.map_injective_iff.mpr (Option.some_injective _) fields]
    exact ⟨again, repeated, same⟩

theorem fields_steady {id : NodeId} (inside : id < schema.nodes.size) : schema.Steady (schema.fields id) := by
  cases isGroup : (schema.nodes.kindOf id).isGroup with
  | true => exact group_steady loaded inside isGroup
  | false =>
    obtain ⟨depth, deep⟩ : ∃ depth, schema.depth = depth + 1 :=
      Nat.exists_eq_add_one.mpr (Nat.mul_pos (Nat.succ_pos _) (Nat.succ_pos _))
    have single : schema.fields id = (fun builder => [builder]) <$>
        (Recursion.upTo schema.nodes depth).builder id none := by
      rw [fields, recursion, deep]
      simp only [Recursion.upTo, Derive.expandOnce, List.not_mem_nil, if_false]
      cases construct : (schema.nodes.get id).construct with
      | schema | group | attrGroup | sequence | choice | all =>
        simp [Nodes.kindOf, Node.kind, construct, Construct.kind, Kind.isGroup] at isGroup
      | _ => simp [Derive.expand, construct]
    rw [single]
    refine (builder_steady loaded inside fun memo => ?_).map
    have bound := schema.pending_bound memo
    omega

theorem node_steady {id : NodeId} (inside : id < schema.nodes.size) : schema.Steady (schema.builder id) := by
  refine builder_steady loaded inside fun memo => ?_
  have bound := schema.pending_bound memo
  omega

theorem tagged_steady {ids : List NodeId} (inside : ∀ id ∈ ids, id < schema.nodes.size) (tags : Entries BuilderId) :
    schema.Steady (ids.foldlM schema.tagged tags) := by
  induction ids generalizing tags with
  | nil => exact .pure
  | cons id ids ih =>
    obtain ⟨first, others⟩ := List.forall_mem_cons.mp inside
    rw [List.foldlM_cons]
    refine Steady.bind ?_ (ih others)
    unfold Schema.tagged
    split
    · exact (node_steady loaded first).bind fun _ => .pure
    · exact .pure

theorem tags_steady : schema.Steady schema.tags :=
  tagged_steady loaded (fun _ member => loaded.formed.child_lt member) []

theorem definitions_safe (style : Style) : schema.Safe (schema.definitions style) := by
  have get : schema.Safe (get : Derive Derivation) := by
    refine ⟨fun tenable gives => ?_⟩
    cases gives
    exact ⟨tenable, .refl⟩
  have lifted {α : Type} (made : Option α) : schema.Safe (liftM made : Derive α) := by
    refine ⟨fun tenable gives => ?_⟩
    obtain ⟨_, rfl⟩ := Derive.Gives.lift_iff.mp gives
    exact ⟨tenable, .refl⟩
  have report (notice : Notice) : schema.Safe (Derive.report notice) := by
    refine ⟨fun tenable gives => ?_⟩
    cases gives
    exact ⟨⟨tenable.fits, tenable.settled, tenable.range, tenable.classed, tenable.answered⟩, .refl⟩
  have reports (notices : List Notice) : schema.Safe (notices.forM Derive.report) := by
    induction notices with
    | nil => exact .pure
    | cons notice notices ih => exact (report notice).bind fun _ => ih
  have roots := (fields_steady loaded loaded.root_lt).toSafe
  exact roots.bind fun _ => get.bind fun _ => (report _).bind fun _ => (lifted _).bind fun _ =>
    (reports _).bind fun _ => .pure

theorem reply_safe {request : Request} (inside : request.Inside schema) : schema.Safe (schema.reply request) := by
  have map {α : Type} {steps : Derive α} {f : α → Reply} (safe : schema.Safe steps) : schema.Safe (f <$> steps) := by
    rw [map_eq_pure_bind]
    exact safe.bind fun _ => .pure
  cases request with
  | builder id => exact map (node_steady loaded inside).toSafe
  | fields id => exact map (fields_steady loaded inside).toSafe
  | classBuilders => exact map (fields_steady loaded loaded.root_lt).toSafe
  | tags => exact map (tags_steady loaded).toSafe
  | definitions style => exact map (definitions_safe loaded style)

theorem replies_safe {requests : List Request} (inside : ∀ request ∈ requests, request.Inside schema) :
    schema.Safe (schema.replies requests) := by
  unfold replies
  induction requests with
  | nil => exact .pure
  | cons request requests ih =>
    obtain ⟨first, others⟩ := List.forall_mem_cons.mp inside
    rw [List.mapM_cons]
    exact (reply_safe loaded first).bind fun _ => (ih others).bind fun _ => .pure

/-- Definitions are written down if and only if their classes have no field whose type has no end. -/
theorem definitions_answered (acyclic : schema.nodes.Acyclic) {style : Style} (tenable : before.Tenable schema.nodes) :
    (∃ result after, (schema.definitions style).Gives before result after) ↔ schema.RenderingEnds before := by
  have classes := fields_steady loaded loaded.root_lt
  obtain ⟨roots, middle, asked⟩ := classes.total acyclic tenable
  exact definitions_answered_iff asked (classes.grows tenable asked).1.range
    (classBuilders_lt loaded tenable.ready asked)

/-- A request has a reply if and only if it ends. -/
theorem reply_answered_iff (acyclic : schema.nodes.Acyclic) {request : Request} (inside : request.Inside schema)
    (tenable : before.Tenable schema.nodes) :
    (∃ answer after, (schema.reply request).Gives before answer after) ↔ request.Ends schema before := by
  cases request with
  | builder id => exact iff_of_true ((node_steady loaded inside).map.total acyclic tenable) trivial
  | fields id => exact iff_of_true ((fields_steady loaded inside).map.total acyclic tenable) trivial
  | classBuilders => exact iff_of_true ((fields_steady loaded loaded.root_lt).map.total acyclic tenable) trivial
  | tags => exact iff_of_true ((tags_steady loaded).map.total acyclic tenable) trivial
  | definitions style =>
    rw [Request.Ends, ← @definitions_answered _ _ loaded acyclic style tenable]
    constructor
    · rintro ⟨_, after, gives⟩
      obtain ⟨definitions, made, _⟩ := gives.map
      exact ⟨definitions, after, made⟩
    · exact fun ⟨definitions, after, made⟩ => ⟨_, after, made.mapped⟩

/-- A sequence of requests has replies if and only if each request ends when its turn comes. -/
theorem replies_answered_iff (acyclic : schema.nodes.Acyclic) {requests : List Request}
    (inside : ∀ request ∈ requests, request.Inside schema) (tenable : before.Tenable schema.nodes) :
    (∃ replies after, (schema.replies requests).Gives before replies after) ↔ schema.AllEnd requests before := by
  induction requests generalizing before with
  | nil => exact iff_of_true ⟨[], before, rfl⟩ trivial
  | cons request requests ih =>
    obtain ⟨first, others⟩ := List.forall_mem_cons.mp inside
    rw [AllEnd, ← reply_answered_iff loaded acyclic first tenable]
    unfold replies at ih ⊢
    rw [List.mapM_cons]
    constructor
    · rintro ⟨_, _, gives⟩
      obtain ⟨answer, middle, answered, gives⟩ := gives.bind
      obtain ⟨replies, after, remaining, _⟩ := gives.bind
      refine ⟨⟨answer, middle, answered⟩, fun _ _ same => ?_⟩
      cases Option.some.inj (answered.symm.trans same)
      exact (ih others ((reply_safe loaded first).grows tenable answered).1).mp ⟨replies, after, remaining⟩
    · rintro ⟨⟨answer, middle, answered⟩, rest⟩
      obtain ⟨replies, after, remaining⟩ :=
        (ih others ((reply_safe loaded first).grows tenable answered).1).mpr (rest _ _ answered)
      exact ⟨_, after, answered.then (remaining.then rfl)⟩

omit loaded in
theorem AllEnd.of_derives {requests : List Request} (derives : ∀ request ∈ requests, request.Derives) :
    schema.AllEnd requests before := by
  induction requests generalizing before with
  | nil => trivial
  | cons request requests ih =>
    obtain ⟨first, others⟩ := List.forall_mem_cons.mp derives
    refine ⟨?_, fun _ _ _ => ih others⟩
    cases request with
    | builder | fields | classBuilders | tags => trivial
    | definitions => exact first.elim

/-- Without circles of references used once, every sequence of requests for builders has replies, and so has one with
requests for definitions if and only if these end. Afterwards there are at most two builders for each node. -/
theorem builders_bounded (acyclic : schema.nodes.Acyclic) {requests : List Request}
    (inside : ∀ request ∈ requests, request.Inside schema) :
    ((∀ request ∈ requests, request.Derives) →
      ∃ replies final, (schema.replies requests).Gives schema.derivation replies final) ∧
      ((∃ replies final, (schema.replies requests).Gives schema.derivation replies final) ↔
        schema.AllEnd requests schema.derivation) ∧
      ∀ replies final, (schema.replies requests).Gives schema.derivation replies final →
        final.builders.size ≤ 2 * schema.nodes.size := by
  have answered := replies_answered_iff loaded acyclic inside tenable_start
  refine ⟨fun derives => answered.mpr (.of_derives derives), answered, fun replies final gives => ?_⟩
  obtain ⟨_, grown⟩ := (replies_safe loaded inside).grows tenable_start gives
  have none : schema.derivation.stage.size = 0 := rfl
  have start : schema.nodes.pending schema.derivation.stage.memo ≤ schema.nodes.size := Nodes.pending_le_size
  have promised := grown.promised
  unfold Stage.promised at promised
  calc
    final.builders.size ≤ final.stage.size + 2 * schema.nodes.pending final.stage.memo := Nat.le_add_right _ _
    _ ≤ 2 * schema.nodes.size := by omega

end Answers

set_option maxRecDepth 8000 in
theorem builders_bounded_entwined : entwined.Loaded ∧ entwined.nodes.Acyclic ∧
    (∀ request ∈ [Request.fields 3, .builder 4, .tags, .definitions {}, .classBuilders], request.Inside entwined) ∧
      ∃ replies final,
        (entwined.replies [.fields 3, .builder 4, .tags, .definitions {}, .classBuilders]).Gives
          entwined.derivation replies final ∧
        final.builders.size ≤ 2 * entwined.nodes.size := by
  have inside : ∀ request ∈ [Request.fields 3, .builder 4, .tags, .definitions {}, .classBuilders],
      request.Inside entwined := by
    simp only [List.forall_mem_cons]
    exact ⟨(by decide : 3 < entwined.nodes.size), (by decide : 4 < entwined.nodes.size), trivial, trivial, trivial,
      List.forall_mem_nil _⟩
  obtain ⟨_, _, bounded⟩ := builders_bounded entwined_loaded entwined_acyclic inside
  have outcome : ((entwined.replies [.fields 3, .builder 4, .tags, .definitions {}, .classBuilders]).run
      entwined.derivation).isSome := by cbv
  obtain ⟨⟨replies, final⟩, gives⟩ := Option.isSome_iff_exists.mp outcome
  exact ⟨entwined_loaded, entwined_acyclic, inside, replies, final, gives, bounded replies final gives⟩

end Schema
end SchemaClasses
