import SchemaClasses.Proofs.Derivation.Growth
import SchemaClasses.Proofs.Derivation.Sound

/-! Derivation ends where references do not run in a circle. Between two nodes that take a builder the
depth grows by at most all references and all groups, and each node takes a builder once. -/

namespace SchemaClasses

namespace Nodes

/-- The declaration that an element used once or an attribute stands for. -/
def singleRef? (nodes : Nodes) (id : NodeId) : Option NodeId :=
  match (nodes.get id).construct with
  | .element { ref := some (.resolved referenced), occurs, .. } => if occurs.isMultiple then none else some referenced
  | .attr { ref := some (.resolved referenced), .. } => some referenced
  | _ => none

def Refers (nodes : Nodes) (id referenced : NodeId) : Prop :=
  nodes.singleRef? id = some referenced

/-- No element used once and no attribute stands for itself. -/
def Acyclic (nodes : Nodes) : Prop :=
  ∀ id, ¬Relation.TransGen nodes.Refers id id

theorem acyclic_of_all {nodes : Nodes} (all : (List.range nodes.size).all fun id => nodes.singleRef? id = none) :
    nodes.Acyclic := by
  intro id circle
  obtain ⟨referenced, refers, _⟩ := Relation.TransGen.head'_iff.mp circle
  rw [Refers] at refers
  rcases Nat.lt_or_ge id nodes.size with inside | outside
  · have none := of_decide_eq_true (List.all_eq_true.mp all id (List.mem_range.mpr inside))
    rw [none] at refers
    cases refers
  · rw [singleRef?, get_outside outside] at refers
    cases refers

theorem refers_iff {nodes : Nodes} {id referenced : NodeId} :
    nodes.Refers id referenced ↔ nodes.plan id = .share referenced := by
  unfold Refers singleRef? Nodes.plan
  cases construct : (nodes.get id).construct with
  | element decl =>
    obtain ⟨name, type, ref, occurs⟩ := decl
    rcases ref with _ | (_ | _)
    · simp
    · simp
    · by_cases repeated : occurs.isMultiple = true <;> simp [repeated]
  | attr decl =>
    obtain ⟨name, type, ref, usage⟩ := decl
    rcases ref with _ | (_ | _) <;> simp
  | _ => simp

theorem Refers.use {nodes : Nodes} {id referenced : NodeId} (refers : nodes.Refers id referenced) :
    (nodes.get id).construct.nodeRef? = some (.resolved referenced) :=
  (share_cases (refers_iff.mp refers)).1

theorem Refers.kind {nodes : Nodes} {id referenced : NodeId} (refers : nodes.Refers id referenced) :
    nodes.kindOf id = .element ∨ nodes.kindOf id = .attr :=
  (share_cases (refers_iff.mp refers)).2

theorem length_lt {nodes : Nodes} {ids : List NodeId} {id : NodeId} (distinct : ids.Nodup)
    (inside : ∀ other ∈ ids, other < nodes.size) (within : id < nodes.size) (outside : id ∉ ids) :
    ids.length < nodes.size := by
  have all : (id :: ids) ⊆ List.range nodes.size := by
    intro other member
    rcases List.mem_cons.mp member with rfl | member
    · exact List.mem_range.mpr within
    · exact List.mem_range.mpr (inside other member)
  have shorter := (List.subperm_of_subset (List.nodup_cons.mpr ⟨outside, distinct⟩) all).length_le
  rw [List.length_cons, List.length_range] at shorter
  exact shorter

/-- References that lead to a node without a circle. -/
structure Chain (nodes : Nodes) (chain : List NodeId) (id : NodeId) : Prop where
  distinct : chain.Nodup
  inside : ∀ other ∈ chain, other < nodes.size
  leads : ∀ other ∈ chain, Relation.TransGen nodes.Refers other id

theorem Chain.nil {nodes : Nodes} {id : NodeId} : nodes.Chain [] id := ⟨.nil, by simp, by simp⟩

theorem Chain.outside {nodes : Nodes} {chain : List NodeId} {id : NodeId} (linked : nodes.Chain chain id)
    (acyclic : nodes.Acyclic) : id ∉ chain :=
  fun member => acyclic id (linked.leads id member)

theorem Chain.cons {nodes : Nodes} {chain : List NodeId} {id referenced : NodeId} (linked : nodes.Chain chain id)
    (acyclic : nodes.Acyclic) (inside : id < nodes.size) (refers : nodes.Refers id referenced) :
    nodes.Chain (id :: chain) referenced where
  distinct := List.nodup_cons.mpr ⟨linked.outside acyclic, linked.distinct⟩
  inside := by
    intro other member
    rcases List.mem_cons.mp member with rfl | member
    · exact inside
    · exact linked.inside other member
  leads := by
    intro other member
    rcases List.mem_cons.mp member with rfl | member
    · exact .single refers
    · exact (linked.leads other member).tail refers

/-- How many nodes have no builder yet. -/
def pending (nodes : Nodes) (memo : NodeId → Option BuilderId) : Nat :=
  (List.range nodes.size).countP fun id => (memo id).isNone

theorem pending_le_size {nodes : Nodes} {memo : NodeId → Option BuilderId} : nodes.pending memo ≤ nodes.size := by
  have length : nodes.pending memo ≤ (List.range nodes.size).length := List.countP_le_length
  rwa [List.length_range] at length

theorem pending_le {nodes : Nodes} {busy : List BuilderId} {task : Task} {stage later : Stage} {outcome : Expansion}
    {made : List Origin} (run : Run nodes busy task stage outcome later made) :
    nodes.pending later.memo ≤ nodes.pending stage.memo := by
  refine List.countP_mono_left fun id _ new => ?_
  simp only [Option.isNone_iff_eq_none] at new ⊢
  exact run.lacks new

theorem pending_lt {nodes : Nodes} {memo : NodeId → Option BuilderId} {id : NodeId} {builder : BuilderId}
    (inside : id < nodes.size) (new : memo id = none) :
    nodes.pending (Function.update memo id (some builder)) < nodes.pending memo := by
  refine countP_lt_countP (fun other => ?_) (List.mem_range.mpr inside) (by simp [new]) (by simp)
  by_cases same : other = id
  · subst same
    simp
  · rw [Function.update_of_ne same]
    exact fun new => new

end Nodes

/-- Before a step: the memo has room, and every builder has a bag of its own. -/
structure Derivation.Ready (nodes : Nodes) (derivation : Derivation) : Prop where
  fits : derivation.Fits nodes
  whole : derivation.stage.Whole

/-- A recursion of a depth that suffices for what is still to be derived. -/
structure Recursion.Total (nodes : Nodes) (recursion : Recursion) (depth : Nat) : Prop where
  builder : ∀ chain id target {before}, before.Ready nodes →
    (∀ builder, target = some builder → builder < before.stage.size) →
    id < nodes.size → nodes.Chain chain id →
    nodes.pending before.stage.memo * (2 * nodes.size + 3) + (nodes.size - chain.length) + 1 ≤ depth →
    ∃ builder after, (recursion.builder id target).Gives before builder after
  expansion : ∀ path id {before}, before.Ready nodes → path.Nodup → (∀ other ∈ path, other < nodes.size) →
    id < nodes.size → (nodes.kindOf id).isGroup →
    nodes.pending before.stage.memo * (2 * nodes.size + 3) + (nodes.size + 1) + (nodes.size - path.length) + 1 ≤ depth →
    ∃ content after, (recursion.expansion path id).Gives before content after

section Gives
variable {α β : Type} {before middle after : Derivation}

theorem Derive.Gives.then {first : Derive α} {rest : α → Derive β} {value : α} {result : β}
    (gives : first.Gives before value middle) (remaining : (rest value).Gives middle result after) :
    (first >>= rest).Gives before result after :=
  Option.bind_eq_some_iff.mpr ⟨(value, middle), gives, remaining⟩

theorem Derive.Gives.mapped {first : Derive α} {f : α → β} {value : α} (gives : first.Gives before value after) :
    (f <$> first).Gives before (f value) after := by
  rw [map_eq_pure_bind]
  exact gives.then rfl

end Gives

namespace Derive
variable {nodes : Nodes} {recursion : Recursion} {depth : Nat} {before : Derivation}

theorem perform_total (formed : nodes.Formed) (total : recursion.Total nodes depth) (ready : before.Ready nodes)
    {id : NodeId} {builder : BuilderId} {entry : Entry} (inside : id < nodes.size)
    (within : builder < before.stage.size) (listed : entry ∈ nodes.planned id)
    (enough : nodes.pending before.stage.memo * (2 * nodes.size + 3) + 2 * nodes.size + 2 ≤ depth) :
    ∃ result after, (perform recursion builder entry).Gives before result after := by
  cases entry with
  | mark mark | rules rules | plain role type | notice notice => exact ⟨_, _, rfl⟩
  | ask role asked =>
    obtain ⟨other, after, asks⟩ :=
      total.builder [] _ none ready Stage.nowhere (formed.ask_lt listed) .nil (by simp only [List.length_nil]; omega)
    exact ⟨_, _, asks.then rfl⟩
  | embed inner =>
    obtain ⟨other, after, embeds⟩ :=
      total.builder [] _ (some builder) ready (by rintro _ ⟨⟩; exact within) (formed.embeds_lt listed) .nil
        (by simp only [List.length_nil]; omega)
    exact ⟨(), after, embeds.mapped⟩
  | append group =>
    obtain ⟨content, after, expands⟩ := total.expansion [] _ ready .nil (by simp) (formed.append_lt inside listed)
      (formed.append_group listed) (by simp only [List.length_nil]; omega)
    exact ⟨_, _, expands.then rfl⟩

theorem performAll_total (formed : nodes.Formed) (sound : recursion.Sound nodes) (total : recursion.Total nodes depth)
    (ready : before.Ready nodes) {id : NodeId} {builder : BuilderId} {entries : List Entry} (inside : id < nodes.size)
    (within : builder < before.stage.size) (listed : ∀ entry ∈ entries, entry ∈ nodes.planned id)
    (enough : nodes.pending before.stage.memo * (2 * nodes.size + 3) + 2 * nodes.size + 2 ≤ depth) :
    ∃ result after, (forM entries (perform recursion builder)).Gives before result after := by
  induction entries generalizing before with
  | nil => exact ⟨_, _, rfl⟩
  | cons entry entries ih =>
    have own := listed entry List.mem_cons_self
    obtain ⟨_, middle, first⟩ := perform_total formed total ready inside within own enough
    obtain ⟨fits, _, run⟩ := @perform_run _ _ [] _ _ formed sound _ _ _ inside own ready.fits _ first
    have grows := run.growth ready.whole (by rintro _ ⟨⟩; exact within)
    have fewer := Nat.mul_le_mul_right (2 * nodes.size + 3) (Nodes.pending_le run)
    obtain ⟨_, after, rest⟩ := ih ⟨fits, grows.whole⟩ (Nat.lt_of_lt_of_le within grows.le)
      (fun entry member => listed entry (List.mem_cons_of_mem _ member)) (by omega)
    rw [List.forM_cons]
    exact ⟨_, _, first.then rest⟩

theorem reports_total (notices : List Notice) (before : Derivation) :
    ∃ after, (notices.forM report).Gives before () after := by
  induction notices generalizing before with
  | nil => exact ⟨_, rfl⟩
  | cons notice notices ih =>
    obtain ⟨after, rest⟩ := ih (before.report notice)
    exact ⟨after, rest⟩

theorem prepare_total {id : NodeId} {target : Option BuilderId} {notices : BuilderId → List Notice}
    {wrapped : Option (Option String)} :
    ∃ result after, (prepare id target notices wrapped).Gives before result after := by
  obtain ⟨builder, started, starts⟩ : ∃ builder started, (makeUnless target).Gives before builder started := by
    cases target <;> exact ⟨_, _, rfl⟩
  obtain ⟨reported, reports⟩ := reports_total (notices builder) (started.remember id builder)
  obtain ⟨filled, opened, unwraps⟩ : ∃ filled opened, (unwrap builder wrapped).Gives reported filled opened := by
    cases wrapped <;> exact ⟨_, _, rfl⟩
  have remembers : (remember id builder).Gives started () (started.remember id builder) := rfl
  exact ⟨_, _, starts.then (remembers.then (reports.then (unwraps.then rfl)))⟩

theorem follow_total (formed : nodes.Formed) (acyclic : nodes.Acyclic) (sound : recursion.Sound nodes)
    (total : recursion.Total nodes depth) (ready : before.Ready nodes) {chain : List NodeId} {id : NodeId}
    {target : Option BuilderId} (within : ∀ builder, target = some builder → builder < before.stage.size)
    (inside : id < nodes.size) (linked : nodes.Chain chain id) (new : before.builder? id = none)
    (enough : nodes.pending before.stage.memo * (2 * nodes.size + 3) + (nodes.size - chain.length) ≤ depth) :
    ∃ builder after, (follow recursion id target (nodes.plan id)).Gives before builder after := by
  have shorter := Nodes.length_lt linked.distinct linked.inside inside (linked.outside acyclic)
  cases plan : nodes.plan id with
  | share referenced =>
    have linked := linked.cons acyclic inside (Nodes.refers_iff.mpr plan)
    obtain ⟨builder, after, shares⟩ := total.builder _ _ none ready Stage.nowhere (formed.share_lt plan) linked
      (by simp only [List.length_cons]; omega)
    exact ⟨_, _, shares.then rfl⟩
  | build notices wrapped entries =>
    obtain ⟨⟨builder, filled⟩, opened, prepares⟩ : ∃ result opened,
      (prepare id target notices wrapped).Gives before result opened :=
      prepare_total
    obtain ⟨fits, started, start, unwrap⟩ := prepare_stage inside ready.fits prepares
    have opens := Stage.opening ready.whole within start unwrap
    have listed : ∀ entry ∈ entries, entry ∈ nodes.planned id := by
      rw [Nodes.planned_of_plan plan]
      exact fun _ member => member
    have fewer : nodes.pending opened.stage.memo < nodes.pending before.stage.memo := by
      rw [Stage.opened_memo start unwrap]
      exact Nodes.pending_lt inside new
    have less := Nat.mul_le_mul_right (2 * nodes.size + 3) (Nat.succ_le_of_lt fewer)
    obtain ⟨_, after, performs⟩ :=
      performAll_total formed sound total ⟨fits, opens.grows.whole⟩ inside opens.inside listed
      (by rw [Nat.succ_mul] at less; omega)
    exact ⟨_, _, prepares.then (performs.then rfl)⟩

theorem derive_known {id : NodeId} {target : Option BuilderId} {builder : BuilderId}
    (found : before.builder? id = some builder) :
    (derive nodes recursion id target).Gives before builder before := by
  have looks : (builder? id).Gives before (some builder) before := by rw [← found]; rfl
  rw [derive_eq]
  exact looks.then rfl

theorem derive_total (formed : nodes.Formed) (acyclic : nodes.Acyclic) (sound : recursion.Sound nodes)
    (total : recursion.Total nodes depth) (ready : before.Ready nodes) {chain : List NodeId} {id : NodeId}
    {target : Option BuilderId} (within : ∀ builder, target = some builder → builder < before.stage.size)
    (inside : id < nodes.size) (linked : nodes.Chain chain id)
    (enough : nodes.pending before.stage.memo * (2 * nodes.size + 3) + (nodes.size - chain.length) ≤ depth) :
    ∃ builder after, (derive nodes recursion id target).Gives before builder after := by
  cases found : before.builder? id with
  | some builder => exact ⟨_, _, derive_known found⟩
  | none =>
    rw [derive_eq]
    have looks : (builder? id).Gives before none before := by rw [← found]; rfl
    obtain ⟨builder, after, follows⟩ := follow_total formed acyclic sound total ready within inside linked found enough
    exact ⟨_, _, looks.then follows⟩

theorem part_total (formed : nodes.Formed) (total : recursion.Total nodes depth) (ready : before.Ready nodes)
    {path : List NodeId} {id : NodeId} {part : Part} (distinct : (id :: path).Nodup)
    (within : ∀ other ∈ id :: path, other < nodes.size) (isGroup : (nodes.kindOf id).isGroup)
    (listed : part ∈ nodes.parts id)
    (enough : nodes.pending before.stage.memo * (2 * nodes.size + 3) + (nodes.size + 1) +
      (nodes.size - path.length) ≤ depth) :
    ∃ content after, (Derive.part recursion (id :: path) part).Gives before content after := by
  have shorter := Nodes.length_lt (List.nodup_cons.mp distinct).2
    (fun other member => within other (List.mem_cons_of_mem _ member))
    (within id List.mem_cons_self) (List.nodup_cons.mp distinct).1
  cases part with
  | leaf leaf =>
    obtain ⟨_, _, derives⟩ := total.builder [] _ none ready Stage.nowhere (formed.leaf_lt isGroup listed) .nil
      (by simp only [List.length_nil]; omega)
    exact ⟨_, _, derives.then rfl⟩
  | group group =>
    exact total.expansion _ _ ready distinct within (formed.group_lt isGroup listed) (formed.group_group isGroup listed)
      (by simp only [List.length_cons]; omega)
  | notice notice => exact ⟨_, _, rfl⟩

theorem parts_total (formed : nodes.Formed) (sound : recursion.Sound nodes) (total : recursion.Total nodes depth)
    (ready : before.Ready nodes) {path : List NodeId} {id : NodeId} {parts : List Part} (distinct : (id :: path).Nodup)
    (within : ∀ other ∈ id :: path, other < nodes.size) (isGroup : (nodes.kindOf id).isGroup)
    (listed : ∀ part ∈ parts, part ∈ nodes.parts id)
    (enough : nodes.pending before.stage.memo * (2 * nodes.size + 3) + (nodes.size + 1) +
      (nodes.size - path.length) ≤ depth) :
    ∃ contents after, (parts.mapM (Derive.part recursion (id :: path))).Gives before contents after := by
  induction parts generalizing before with
  | nil => exact ⟨_, _, rfl⟩
  | cons part parts ih =>
    have own := listed part List.mem_cons_self
    obtain ⟨_, middle, first⟩ := part_total formed total ready distinct within isGroup own enough
    obtain ⟨fits, _, run⟩ := @part_run _ _ [] _ _ formed sound _ _ _ isGroup own ready.fits _ first
    have grows := run.growth ready.whole Stage.nowhere
    have fewer := Nat.mul_le_mul_right (2 * nodes.size + 3) (Nodes.pending_le run)
    obtain ⟨_, after, rest⟩ :=
      ih ⟨fits, grows.whole⟩ (fun part member => listed part (List.mem_cons_of_mem _ member)) (by omega)
    rw [List.mapM_cons]
    exact ⟨_, _, first.then (rest.then rfl)⟩

theorem expandOnce_total (formed : nodes.Formed) (sound : recursion.Sound nodes) (total : recursion.Total nodes depth)
    (ready : before.Ready nodes) {path : List NodeId} {id : NodeId} (distinct : path.Nodup)
    (within : ∀ other ∈ path, other < nodes.size) (inside : id < nodes.size) (isGroup : (nodes.kindOf id).isGroup)
    (enough : nodes.pending before.stage.memo * (2 * nodes.size + 3) + (nodes.size + 1) +
      (nodes.size - path.length) ≤ depth) :
    ∃ content after, (expandOnce nodes recursion path id).Gives before content after := by
  unfold expandOnce
  split
  · exact ⟨_, _, rfl⟩
  · next outside =>
    have bounded : ∀ other ∈ id :: path, other < nodes.size := by
      intro other member
      rcases List.mem_cons.mp member with rfl | member
      · exact inside
      · exact within other member
    obtain ⟨contents, after, members⟩ :=
      parts_total formed sound total ready (List.nodup_cons.mpr ⟨outside, distinct⟩) bounded
      isGroup (fun _ member => member) enough
    have options (content : Expansion) : ∃ result, (withOptions nodes id content).Gives after result after := by
      unfold withOptions
      split <;> exact ⟨_, rfl⟩
    obtain ⟨_, optioned⟩ := options (Expansion.join contents)
    rw [expand_eq]
    exact ⟨_, _, members.mapped.then optioned⟩

end Derive

theorem Recursion.upTo_total {nodes : Nodes} (formed : nodes.Formed) (acyclic : nodes.Acyclic) (depth : Nat) :
    (upTo nodes depth).Total nodes depth := by
  induction depth with
  | zero => exact ⟨fun _ _ _ _ _ _ _ _ enough => by omega, fun _ _ _ _ _ _ _ _ enough => by omega⟩
  | succ depth ih =>
    have sound := upTo_sound formed depth
    constructor
    · intro chain id target before ready within inside linked enough
      exact Derive.derive_total formed acyclic sound ih ready within inside linked (Nat.le_of_succ_le_succ enough)
    · intro path id before ready distinct within inside isGroup enough
      exact Derive.expandOnce_total formed sound ih ready distinct within inside isGroup (Nat.le_of_succ_le_succ enough)

end SchemaClasses
