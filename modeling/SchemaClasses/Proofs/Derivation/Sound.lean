import SchemaClasses.Proofs.Derivation.Links
import SchemaClasses.Proofs.Derivation.Run

/-! Whatever derivation returns, it returns by a run. -/

namespace SchemaClasses

section Gives
variable {α β : Type} {before after : Derivation}

/-- Steps that have a result. -/
def Derive.Gives (steps : Derive α) (before : Derivation) (result : α) (after : Derivation) : Prop :=
  steps.run before = some (result, after)

namespace Derive.Gives

theorem bind {first : Derive α} {rest : α → Derive β} {result : β}
    (gives : (first >>= rest).Gives before result after) :
    ∃ value middle, first.Gives before value middle ∧ (rest value).Gives middle result after := by
  obtain ⟨⟨value, middle⟩, found, remaining⟩ := Option.bind_eq_some_iff.mp gives
  exact ⟨value, middle, found, remaining⟩

theorem pure {value result : α} (gives : (Pure.pure value : Derive α).Gives before result after) :
    result = value ∧ after = before := by
  cases gives
  exact ⟨rfl, rfl⟩

theorem map {first : Derive α} {f : α → β} {result : β} (gives : (f <$> first).Gives before result after) :
    ∃ value, first.Gives before value after ∧ result = f value := by
  rw [map_eq_pure_bind] at gives
  obtain ⟨value, middle, found, last⟩ := gives.bind
  obtain ⟨rfl, rfl⟩ := last.pure
  exact ⟨value, found, rfl⟩

theorem lift_iff {made : Option α} {result : α} :
    (liftM made : Derive α).Gives before result after ↔ made = some result ∧ after = before := by
  have run : (liftM made : Derive α).run before = made.bind fun value => some (value, before) := rfl
  rw [Derive.Gives, run, Option.bind_eq_some_iff]
  simp only [Option.some.injEq, Prod.mk.injEq]
  constructor
  · rintro ⟨_, found, rfl, rfl⟩
    exact ⟨found, rfl⟩
  · rintro ⟨found, rfl⟩
    exact ⟨result, found, rfl, rfl⟩

theorem edit {change : Builders → Builders} {result : Unit} (gives : (Derive.edit change).Gives before result after) :
    after = { before with builders := change before.builders } := by
  cases gives
  rfl

theorem make {creation : Builders → BuilderId × Builders} {result : BuilderId}
    (gives : (Derive.make creation).Gives before result after) :
    result = (creation before.builders).1 ∧ after = { before with builders := (creation before.builders).2 } := by
  cases gives
  exact ⟨rfl, rfl⟩

theorem report {notice : Notice} {result : Unit} (gives : (Derive.report notice).Gives before result after) :
    after = before.report notice := by
  cases gives
  rfl

theorem remember {id : NodeId} {builder : BuilderId} {result : Unit}
    (gives : (Derive.remember id builder).Gives before result after) : after = before.remember id builder := by
  cases gives
  rfl

theorem builder? {id : NodeId} {result : Option BuilderId} (gives : (Derive.builder? id).Gives before result after) :
    result = before.builder? id ∧ after = before := by
  cases gives
  exact ⟨rfl, rfl⟩

end Derive.Gives
end Gives

namespace Derivation

def Fits (nodes : Nodes) (derivation : Derivation) : Prop :=
  derivation.memo.size = nodes.size

theorem stage_report {derivation : Derivation} {notice : Notice} :
    (derivation.report notice).stage = derivation.stage :=
  rfl

theorem stage_remember {nodes : Nodes} {derivation : Derivation} {id : NodeId} {builder : BuilderId}
    (fits : derivation.Fits nodes) (inside : id < nodes.size) :
    (derivation.remember id builder).stage = derivation.stage.remember id builder := by
  have same : (derivation.remember id builder).builder? = Function.update derivation.builder? id (some builder) := by
    funext other
    rcases eq_or_ne other id with rfl | different
    · rw [Function.update_self]
      simp [remember, builder?, fits.symm ▸ inside]
    · rw [Function.update_of_ne different]
      simp [remember, builder?, different.symm]
  simp only [stage, Stage.remember, same]
  rfl

theorem Fits.remember {nodes : Nodes} {derivation : Derivation} {id : NodeId} {builder : BuilderId}
    (fits : derivation.Fits nodes) : (derivation.remember id builder).Fits nodes := by
  simpa [Fits, Derivation.remember] using fits

end Derivation

/-- What a recursion returns, it returns by a run. -/
structure Recursion.Sound (nodes : Nodes) (recursion : Recursion) : Prop where
  builder : ∀ {id target before builder after}, before.Fits nodes → id < nodes.size →
    (recursion.builder id target).Gives before builder after → after.Fits nodes ∧
      ∀ busy, ∃ made, Run nodes busy (.derive id target) before.stage { fields := [builder] } after.stage made
  expansion : ∀ {path id before content after}, before.Fits nodes → id < nodes.size → (nodes.kindOf id).isGroup →
    (recursion.expansion path id).Gives before content after → after.Fits nodes ∧
      ∀ busy, ∃ made, Run nodes busy (.expand path id) before.stage content after.stage made

namespace Derive
variable {nodes : Nodes} {recursion : Recursion} {busy : List BuilderId} {before after : Derivation}

theorem perform_run (formed : nodes.Formed) (sound : recursion.Sound nodes) {id : NodeId} {builder : BuilderId}
    {entry : Entry} (inside : id < nodes.size) (listed : entry ∈ nodes.planned id) (fits : before.Fits nodes)
    {result : Unit} (gives : (perform recursion builder entry).Gives before result after) :
    after.Fits nodes ∧ ∃ made, Run nodes busy (.entry id builder entry) before.stage {} after.stage made := by
  cases entry with
  | mark mark | rules rules | notice notice =>
    cases gives
    exact ⟨fits, _, .written rfl⟩
  | plain role type =>
    obtain ⟨other, middle, made, edited⟩ := Gives.bind gives
    obtain ⟨rfl, rfl⟩ := made.make
    have same := edited.edit
    subst same
    exact ⟨fits, _, .written rfl⟩
  | ask role asked =>
    obtain ⟨other, middle, asks, edited⟩ := Gives.bind gives
    obtain ⟨fits, runs⟩ := sound.builder fits (formed.ask_lt listed) asks
    obtain ⟨made, run⟩ := runs busy
    have same := edited.edit
    subst same
    exact ⟨fits, made, .ask listed run⟩
  | embed inner =>
    obtain ⟨other, embeds, _⟩ := Gives.map gives
    obtain ⟨fits, runs⟩ := sound.builder fits (formed.embeds_lt listed) embeds
    obtain ⟨made, run⟩ := runs busy
    exact ⟨fits, made, .embed listed run⟩
  | append group =>
    obtain ⟨content, middle, expands, edited⟩ := Gives.bind gives
    obtain ⟨fits, runs⟩ := sound.expansion fits (formed.append_lt inside listed) (formed.append_group listed) expands
    obtain ⟨made, run⟩ := runs busy
    obtain ⟨_, _, fields, rules⟩ := edited.bind
    have pushed := fields.edit
    subst pushed
    have pushed := rules.edit
    subst pushed
    exact ⟨fits, made, .append listed run⟩

theorem performAll_run (formed : nodes.Formed) (sound : recursion.Sound nodes) {id : NodeId} {builder : BuilderId}
    {entries : List Entry} (inside : id < nodes.size) (listed : ∀ entry ∈ entries, entry ∈ nodes.planned id)
    (fits : before.Fits nodes) {result : Unit}
    (gives : (forM entries (perform recursion builder)).Gives before result after) :
    after.Fits nodes ∧ ∃ made, Run nodes busy (.entries id builder entries) before.stage {} after.stage made := by
  induction entries generalizing before with
  | nil =>
    obtain ⟨_, rfl⟩ := Gives.pure gives
    exact ⟨fits, _, .finished⟩
  | cons entry entries ih =>
    rw [List.forM_cons] at gives
    obtain ⟨_, middle, first, remaining⟩ := gives.bind
    obtain ⟨fits, _, run⟩ := perform_run formed sound inside (listed entry List.mem_cons_self) fits first
    obtain ⟨fits, _, rest⟩ := ih (fun entry member => listed entry (List.mem_cons_of_mem _ member)) fits remaining
    exact ⟨fits, _, .next run rest⟩

theorem reports_stage {notices : List Notice} {result : Unit}
    (gives : (notices.forM report).Gives before result after) :
    after.stage = before.stage ∧ after.memo.size = before.memo.size := by
  induction notices generalizing before with
  | nil =>
    obtain ⟨_, rfl⟩ := Gives.pure gives
    exact ⟨rfl, rfl⟩
  | cons notice notices ih =>
    obtain ⟨_, middle, first, remaining⟩ := Gives.bind gives
    have same := first.report
    subst same
    have rest := ih remaining
    exact rest

theorem makeUnless_stage {target : Option BuilderId} {builder : BuilderId}
    (gives : (makeUnless target).Gives before builder after) :
    before.stage.start target = (builder, after.stage) ∧ after.memo = before.memo := by
  cases target with
  | some target =>
    obtain ⟨rfl, rfl⟩ := Gives.pure gives
    exact ⟨rfl, rfl⟩
  | none =>
    cases gives
    exact ⟨rfl, rfl⟩

theorem unwrap_stage {wrapped : Option (Option String)} {builder filled : BuilderId}
    (gives : (unwrap builder wrapped).Gives before filled after) :
    before.stage.unwrap builder wrapped = (filled, after.stage) ∧ after.memo = before.memo := by
  cases wrapped with
  | none =>
    obtain ⟨rfl, rfl⟩ := Gives.pure gives
    exact ⟨rfl, rfl⟩
  | some name =>
    obtain ⟨_, _, made, rest⟩ := Gives.bind gives
    obtain ⟨rfl, rfl⟩ := made.make
    obtain ⟨_, _, edited, returned⟩ := rest.bind
    have same := edited.edit
    subst same
    obtain ⟨rfl, rfl⟩ := returned.pure
    exact ⟨rfl, rfl⟩

theorem prepare_stage {id : NodeId} {target : Option BuilderId} {notices : BuilderId → List Notice}
    {wrapped : Option (Option String)} {builder filled : BuilderId} (inside : id < nodes.size)
    (fits : before.Fits nodes) (gives : (prepare id target notices wrapped).Gives before (builder, filled) after) :
    after.Fits nodes ∧ ∃ started, before.stage.start target = (builder, started) ∧
      (started.remember id builder).unwrap builder wrapped = (filled, after.stage) := by
  obtain ⟨_, started, starts, afterStart⟩ := Gives.bind gives
  obtain ⟨_, _, remembered, afterRemember⟩ := afterStart.bind
  obtain ⟨_, reported, reports, afterReports⟩ := afterRemember.bind
  obtain ⟨_, opened, unwraps, returned⟩ := afterReports.bind
  obtain ⟨same, rfl⟩ := returned.pure
  cases same
  obtain ⟨start, memo⟩ := makeUnless_stage starts
  have fits : started.Fits nodes := by rw [Derivation.Fits, memo]; exact fits
  have same := remembered.remember
  subst same
  obtain ⟨stage, size⟩ := reports_stage reports
  obtain ⟨unwrap, opens⟩ := unwrap_stage unwraps
  rw [stage, Derivation.stage_remember fits inside] at unwrap
  refine ⟨?_, started.stage, start, unwrap⟩
  rw [Derivation.Fits, opens, size]
  exact fits.remember

theorem follow_run (formed : nodes.Formed) (sound : recursion.Sound nodes) {id : NodeId} {target : Option BuilderId}
    (inside : id < nodes.size) (new : before.builder? id = none) (fits : before.Fits nodes) {builder : BuilderId}
    (gives : (follow recursion id target (nodes.plan id)).Gives before builder after) :
    after.Fits nodes ∧ ∃ made, Run nodes busy (.derive id target) before.stage
    { fields := [builder] } after.stage made := by
  cases plan : nodes.plan id with
  | share referenced =>
    rw [plan] at gives
    obtain ⟨_, middle, shares, rest⟩ := Gives.bind gives
    obtain ⟨_, _, remembered, returned⟩ := rest.bind
    obtain ⟨fits, runs⟩ := sound.builder fits (formed.share_lt plan) shares
    obtain ⟨made, run⟩ := runs busy
    have same := remembered.remember
    subst same
    obtain ⟨rfl, rfl⟩ := returned.pure
    rw [Derivation.stage_remember fits inside]
    exact ⟨fits.remember, made, .shared new plan run⟩
  | build notices wrapped entries =>
    rw [plan] at gives
    obtain ⟨⟨builder, filled⟩, opened, prepares, afterPrepare⟩ := Gives.bind gives
    obtain ⟨_, _, performs, returned⟩ := afterPrepare.bind
    obtain ⟨rfl, rfl⟩ := returned.pure
    obtain ⟨fits, started, start, unwrap⟩ := prepare_stage inside fits prepares
    have listed : ∀ entry ∈ entries, entry ∈ nodes.planned id := by
      rw [Nodes.planned_of_plan plan]
      exact fun _ member => member
    obtain ⟨fits, made, run⟩ := performAll_run formed sound inside listed fits performs
    exact ⟨fits, _, .opened new plan start unwrap run⟩

theorem derive_run (formed : nodes.Formed) (sound : recursion.Sound nodes) {id : NodeId} {target : Option BuilderId}
    (inside : id < nodes.size) (fits : before.Fits nodes) {builder : BuilderId}
    (gives : (derive nodes recursion id target).Gives before builder after) :
    after.Fits nodes ∧ ∃ made, Run nodes busy (.derive id target) before.stage
    { fields := [builder] } after.stage made := by
  rw [derive_eq] at gives
  obtain ⟨known, start, looked, rest⟩ := gives.bind
  obtain ⟨rfl, rfl⟩ := looked.builder?
  cases found : start.builder? id with
  | some known =>
    simp only [found] at rest
    obtain ⟨rfl, rfl⟩ := rest.pure
    exact ⟨fits, _, .known found⟩
  | none =>
    simp only [found] at rest
    exact follow_run formed sound inside found fits rest

theorem part_run (formed : nodes.Formed) (sound : recursion.Sound nodes) {group : NodeId} {path : List NodeId}
    {part : Part} (isGroup : (nodes.kindOf group).isGroup) (listed : part ∈ nodes.parts group)
    (fits : before.Fits nodes) {content : Expansion}
    (gives : (Derive.part recursion (group :: path) part).Gives before content after) :
    after.Fits nodes ∧ ∃ made, Run nodes busy (.part (group :: path) part) before.stage content after.stage made := by
  cases part with
  | leaf id =>
    obtain ⟨_, _, derives, returned⟩ := Gives.bind gives
    obtain ⟨rfl, rfl⟩ := returned.pure
    obtain ⟨fits, runs⟩ := sound.builder fits (formed.leaf_lt isGroup listed) derives
    obtain ⟨made, run⟩ := runs busy
    exact ⟨fits, made, .leaf isGroup listed run⟩
  | group id =>
    obtain ⟨fits, runs⟩ :=
      sound.expansion fits (formed.group_lt isGroup listed) (formed.group_group isGroup listed) gives
    obtain ⟨made, run⟩ := runs busy
    exact ⟨fits, made, .group listed run⟩
  | notice notice =>
    cases gives
    exact ⟨fits, _, .unresolved⟩

theorem parts_run (formed : nodes.Formed) (sound : recursion.Sound nodes) {group : NodeId} {path : List NodeId}
    {parts : List Part} (isGroup : (nodes.kindOf group).isGroup) (listed : ∀ part ∈ parts, part ∈ nodes.parts group)
    (fits : before.Fits nodes) {contents : List Expansion}
    (gives : (parts.mapM (Derive.part recursion (group :: path))).Gives before contents after) :
    after.Fits nodes ∧
      ∃ made, Run nodes busy (.parts (group :: path) parts) before.stage
      (Expansion.join contents) after.stage made := by
  induction parts generalizing before contents with
  | nil =>
    obtain ⟨rfl, rfl⟩ := Gives.pure gives
    exact ⟨fits, _, .empty⟩
  | cons part parts ih =>
    rw [List.mapM_cons] at gives
    obtain ⟨_, _, first, afterFirst⟩ := gives.bind
    obtain ⟨_, _, remaining, returned⟩ := afterFirst.bind
    obtain ⟨rfl, rfl⟩ := returned.pure
    obtain ⟨fits, _, run⟩ := part_run formed sound isGroup (listed part List.mem_cons_self) fits first
    obtain ⟨fits, _, rest⟩ := ih (fun part member => listed part (List.mem_cons_of_mem _ member)) fits remaining
    have joined := Run.more run rest
    exact ⟨fits, _, by simpa [Expansion.join] using joined⟩

theorem expandOnce_run (formed : nodes.Formed) (sound : recursion.Sound nodes) {path : List NodeId} {id : NodeId}
    (isGroup : (nodes.kindOf id).isGroup) (fits : before.Fits nodes) {content : Expansion}
    (gives : (expandOnce nodes recursion path id).Gives before content after) :
    after.Fits nodes ∧ ∃ made, Run nodes busy (.expand path id) before.stage content after.stage made := by
  unfold expandOnce at gives
  split at gives
  · next inside =>
    cases gives
    exact ⟨fits, _, .cut inside⟩
  · next outside =>
    rw [expand_eq] at gives
    obtain ⟨_, middle, expands, optioned⟩ := gives.bind
    obtain ⟨contents, members, rfl⟩ := expands.map
    obtain ⟨fits, made, run⟩ := parts_run formed sound isGroup (fun _ member => member) fits members
    have expanded := Run.expanded outside run
    have same : after = middle ∧ content = nodes.optioned id middle.stage (Expansion.join contents) := by
      unfold withOptions at optioned
      unfold Nodes.optioned
      split at optioned <;> cases optioned
      · next single => exact ⟨rfl, by rw [if_pos single]; rfl⟩
      · next plain => exact ⟨rfl, by rw [if_neg plain]⟩
    obtain ⟨rfl, rfl⟩ := same
    exact ⟨fits, made, expanded⟩

end Derive

theorem Recursion.upTo_sound {nodes : Nodes} (formed : nodes.Formed) (depth : Nat) :
    (upTo nodes depth).Sound nodes := by
  induction depth with
  | zero => exact ⟨fun _ _ gives => (nomatch gives), fun _ _ _ gives => (nomatch gives)⟩
  | succ depth ih =>
    constructor
    · intro id target before builder after fits inside gives
      refine ⟨?_, fun busy => (Derive.derive_run formed ih inside fits gives).2⟩
      exact (@Derive.derive_run _ _ [] _ _ formed ih _ _ inside fits _ gives).1
    · intro path id before content after fits inside isGroup gives
      refine ⟨?_, fun busy => (Derive.expandOnce_run formed ih isGroup fits gives).2⟩
      exact (@Derive.expandOnce_run _ _ [] _ _ formed ih _ _ isGroup fits _ gives).1

end SchemaClasses
