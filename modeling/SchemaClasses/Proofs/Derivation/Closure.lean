import SchemaClasses.Proofs.Derivation.Links
import SchemaClasses.Proofs.Derivation.Members

/-! What nodes lead to. Once a node is derived, so is all that it leads to, and builders are numbered as
their nodes are met. So the numbers tell afterwards which nodes were still being derived when another
node was: those from which it is reached without going back to a smaller number. -/

namespace SchemaClasses

/-- The nodes whose builders an entry needs. -/
def Entry.leads (nodes : Nodes) : Entry → List NodeId
  | ask _ id | embed id => [id]
  | append group => nodes.members [] group
  | _ => []

namespace Nodes

inductive Leads (nodes : Nodes) (id : NodeId) : NodeId → Prop where
  | share {referenced} (plan : nodes.plan id = .share referenced) : Leads nodes id referenced
  | entry {entry other} (listed : entry ∈ nodes.planned id) (leads : other ∈ entry.leads nodes) : Leads nodes id other

/-- A node leads to another whose builder is not older. -/
def Climbs (nodes : Nodes) (memo : NodeId → Option BuilderId) (id other : NodeId) : Prop :=
  nodes.Leads id other ∧ ∃ first second, memo id = some first ∧ memo other = some second ∧ first ≤ second

/-- A node could not be finished before another. -/
def Awaits (nodes : Nodes) (memo : NodeId → Option BuilderId) : NodeId → NodeId → Prop :=
  Relation.ReflTransGen (nodes.Climbs memo)

theorem planned_of_share {nodes : Nodes} {id referenced : NodeId} (plan : nodes.plan id = .share referenced) :
    nodes.planned id = [] := by
  simp [planned, plan]

theorem Leads.shared {nodes : Nodes} {id other referenced : NodeId} (leads : nodes.Leads id other)
    (plan : nodes.plan id = .share referenced) : other = referenced := by
  cases leads with
  | share same =>
    cases plan.symm.trans same
    rfl
  | entry listed =>
    rw [planned_of_share plan] at listed
    cases listed

end Nodes

namespace Stage

/-- A node has a builder, if need be together with the node that it shares it with. -/
inductive Belongs (nodes : Nodes) (stage : Stage) : NodeId → BuilderId → Prop where
  | own {id builder} (found : stage.memo id = some builder) (alone : ∀ referenced, nodes.plan id ≠ .share referenced) :
      Belongs nodes stage id builder
  | share {id referenced builder} (found : stage.memo id = some builder) (plan : nodes.plan id = .share referenced)
      (belongs : Belongs nodes stage referenced builder) : Belongs nodes stage id builder

/-- A use has the builder of what it refers to. -/
def Shared (nodes : Nodes) (stage : Stage) : Prop :=
  ∀ id builder, stage.memo id = some builder → stage.Belongs nodes id builder

namespace Belongs
variable {nodes : Nodes} {stage later : Stage} {id referenced : NodeId} {builder : BuilderId}

theorem found (belongs : stage.Belongs nodes id builder) : stage.memo id = some builder := by
  cases belongs with
  | own found => exact found
  | share found => exact found

theorem referred (belongs : stage.Belongs nodes id builder) (plan : nodes.plan id = .share referenced) :
    stage.Belongs nodes referenced builder := by
  cases belongs with
  | own found alone => exact absurd plan (alone referenced)
  | share found same belongs =>
    cases plan.symm.trans same
    exact belongs

theorem mono (belongs : stage.Belongs nodes id builder)
    (keeps : ∀ id builder, stage.memo id = some builder → later.memo id = some builder) :
    later.Belongs nodes id builder := by
  induction belongs with
  | own found alone => exact .own (keeps _ _ found) alone
  | share found plan _ ih => exact .share (keeps _ _ found) plan ih

end Belongs

theorem Shared.opened {nodes : Nodes} {stage opened : Stage} (shared : stage.Shared nodes) {id : NodeId}
    {builder : BuilderId} {notices : BuilderId → List Notice} {wrapped : Option (Option String)}
    {entries : List Entry} (new : stage.memo id = none) (plan : nodes.plan id = .build notices wrapped entries)
    (memo : opened.memo = Function.update stage.memo id (some builder)) :
    opened.Shared nodes := by
  have keeps (other : NodeId) (number : BuilderId) (found : stage.memo other = some number) :
      opened.memo other = some number := by
    have different : other ≠ id := by
      intro same
      rw [same, new] at found
      cases found
    rw [memo, Function.update_of_ne different]
    exact found
  intro other number found
  by_cases same : other = id
  · subst same
    refine .own found fun referenced share => ?_
    rw [plan] at share
    cases share
  · rw [memo, Function.update_of_ne same] at found
    exact (shared other number found).mono keeps

theorem Shared.remembered {nodes : Nodes} {stage : Stage} (shared : stage.Shared nodes) {origin referenced : NodeId}
    {builder : BuilderId} (plan : nodes.plan origin = .share referenced)
    (answer : stage.memo referenced = some builder) (id : NodeId) (number : BuilderId)
    (found : stage.memo id = some number) : (stage.remember origin builder).memo id = some number := by
  by_cases same : id = origin
  · subst same
    have known := ((shared id number found).referred plan).found
    rw [← known, answer]
    exact Function.update_self _ _ _
  · simp only [Stage.remember, Function.update_of_ne same]
    exact found

/-- What a finished builder leads to is known, and what of it is still being filled is older. -/
def Closed (nodes : Nodes) (busy : List BuilderId) (stage : Stage) : Prop :=
  ∀ id builder, stage.memo id = some builder → builder ∉ busy → ∀ other, nodes.Leads id other →
    ∃ found, stage.memo other = some found ∧ (found ∈ busy → found < builder)

theorem remember_known {stage : Stage} {id other : NodeId} {builder : BuilderId} (known : stage.memo other ≠ none) :
    (stage.remember id builder).memo other ≠ none := by
  by_cases same : other = id
  · simp [Stage.remember, same]
  · simpa [Stage.remember, same] using known

end Stage

/-- A task may be begun while the `busy` builders are being filled. -/
structure Underway (nodes : Nodes) (busy : List BuilderId) (stage : Stage) (task : Task) : Prop where
  whole : stage.Whole
  range : ∀ builder ∈ busy, builder < stage.size
  held : ∀ builder, task.target? = some builder → builder ∈ busy
  embedded : ∀ id builder, task = .derive id (some builder) → nodes.Embedded id

namespace Underway
variable {nodes : Nodes} {busy : List BuilderId} {stage later : Stage} {task : Task} {outcome : Expansion}
  {made : List Origin}
  {id : NodeId} {target : Option BuilderId}

theorem inside (underway : Underway nodes busy stage task) (builder : BuilderId)
    (target : task.target? = some builder) :
    builder < stage.size :=
  underway.range builder (underway.held builder target)

theorem free (underway : Underway nodes busy stage task) {other : Task} (target : other.target? = none) :
    Underway nodes busy stage other where
  whole := underway.whole
  range := underway.range
  held builder found := by
    rw [target] at found
    cases found
  embedded id builder same := by
    rw [same] at target
    cases target

theorem first {builder : BuilderId} {single : Entry} {several : List Entry}
    (underway : Underway nodes busy stage (.entries id builder (single :: several))) :
    Underway nodes busy stage (.entry id builder single) where
  whole := underway.whole
  range := underway.range
  held := underway.held
  embedded _ _ same := by cases same

theorem embed (underway : Underway nodes busy stage task) {inner : NodeId} {builder : BuilderId} (held : builder ∈ busy)
    (embedded : nodes.Embedded inner) : Underway nodes busy stage (.derive inner (some builder)) where
  whole := underway.whole
  range := underway.range
  held found target := by
    cases target
    exact held
  embedded id found same := by
    cases same
    exact embedded

theorem grows (underway : Underway nodes busy stage task) (run : Run nodes busy task stage outcome later made) :
    Stage.Growth stage later task.target? made :=
  run.growth underway.whole underway.inside

private theorem larger (underway : Underway nodes busy stage task)
    (run : Run nodes busy task stage outcome later made) :
    ∀ builder ∈ busy, builder < later.size :=
  fun builder member => Nat.lt_of_lt_of_le (underway.range builder member) (underway.grows run).le

theorem rest {builder : BuilderId} {single : Entry} {several : List Entry}
    (underway : Underway nodes busy stage (.entries id builder (single :: several)))
    (run : Run nodes busy (.entry id builder single) stage outcome later made) :
    Underway nodes busy later (.entries id builder several) where
  whole := (underway.first.grows run).whole
  range := underway.first.larger run
  held := underway.held
  embedded _ _ same := by cases same

theorem remaining (underway : Underway nodes busy stage task) (run : Run nodes busy task stage outcome later made)
    {path : List NodeId} {parts : List Part} : Underway nodes busy later (.parts path parts) where
  whole := (underway.grows run).whole
  range := underway.larger run
  held _ target := by cases target
  embedded _ _ same := by cases same

theorem opening (underway : Underway nodes busy stage (.derive id target)) {wrapped : Option (Option String)}
    {builder filled : BuilderId} {started opened : Stage} (start : stage.start target = (builder, started))
    (unwrap : (started.remember id builder).unwrap builder wrapped = (filled, opened)) :
    Stage.Opening stage id target wrapped builder filled opened :=
  Stage.opening underway.whole underway.inside start unwrap

theorem opened (underway : Underway nodes busy stage (.derive id target)) {wrapped : Option (Option String)}
    {entries : List Entry} {builder filled : BuilderId} {started opened : Stage}
    (start : stage.start target = (builder, started))
    (unwrap : (started.remember id builder).unwrap builder wrapped = (filled, opened)) :
    Underway nodes (filled :: builder :: busy) opened (.entries id filled entries) where
  whole := (underway.opening start unwrap).grows.whole
  range found member := by
    have opens := underway.opening start unwrap
    have larger := opens.grows.le
    rcases List.mem_cons.mp member with same | member
    · exact same ▸ opens.inside
    · rcases List.mem_cons.mp member with same | member
      · rcases opens.start with target | ⟨target, fresh⟩
        · exact same ▸ Nat.lt_of_lt_of_le (underway.inside builder target) larger
        · subst target
          have size := opens.grows.size
          rw [same, fresh, size]
          exact Nat.lt_add_of_pos_right (Nat.succ_pos _)
      · exact Nat.lt_of_lt_of_le (underway.range found member) larger
  held found target := by
    cases target
    exact List.mem_cons_self
  embedded _ _ same := by cases same

end Underway

namespace Run
variable {nodes : Nodes} {busy : List BuilderId} {task : Task} {stage later : Stage} {outcome : Expansion}
  {made : List Origin}

theorem keeps_known (run : Run nodes busy task stage outcome later made) {id : NodeId} (known : stage.memo id ≠ none) :
    later.memo id ≠ none :=
  fun lacking => known (run.lacks lacking)

theorem members_known (run : Run nodes busy task stage outcome later made) {id : NodeId}
    (member : id ∈ task.members nodes) :
    later.memo id ≠ none := by
  have fields := run.fields
  have known : later.memo id ∈ outcome.fields.map some := fields ▸ List.mem_map_of_mem member
  obtain ⟨builder, _, found⟩ := List.mem_map.mp known
  rw [← found]
  exact Option.some_ne_none builder

private theorem entry_known {origin : NodeId} {builder : BuilderId} {single : Entry}
    (run : Run nodes busy (.entry origin builder single) stage outcome later made) {id : NodeId}
    (leads : id ∈ single.leads nodes) :
    later.memo id ≠ none := by
  cases run with
  | written written =>
    cases single with
    | ask | embed | append => cases written
    | mark | rules | plain | notice => cases leads
  | ask listed run | embed listed run => exact run.members_known leads
  | append listed run => exact run.members_known leads

theorem leads_known {origin : NodeId} {builder : BuilderId} {entries : List Entry}
    (run : Run nodes busy (.entries origin builder entries) stage outcome later made) {entry : Entry}
    (member : entry ∈ entries) {id : NodeId} (leads : id ∈ entry.leads nodes) : later.memo id ≠ none := by
  induction entries generalizing stage outcome made with
  | nil => cases member
  | cons first rest ih =>
    cases run with
    | next run remaining =>
      rcases List.mem_cons.mp member with same | member
      · exact remaining.keeps_known (run.entry_known (same ▸ leads))
      · exact ih remaining member

/-- A node that gets a builder has all that it leads to when the task is done. -/
theorem closes (run : Run nodes busy task stage outcome later made) {id other : NodeId} (new : stage.memo id = none)
    (known : later.memo id ≠ none) (leads : nodes.Leads id other) : later.memo other ≠ none := by
  induction run with
  | known | finished | cut | unresolved | empty => exact absurd new known
  | @shared _ origin _ _ referenced _ _ _ _ plan run ih =>
    by_cases same : id = origin
    · subst same
      cases leads.shared plan
      exact Stage.remember_known (run.members_known List.mem_cons_self)
    · simp only [Stage.remember, Function.update_of_ne same] at known
      exact Stage.remember_known (ih new known)
  | @opened _ origin _ _ _ _ entries _ _ _ _ _ _ _ plan start unwrap run ih =>
    by_cases same : id = origin
    · subst same
      cases leads with
      | share shared => cases plan.symm.trans shared
      | entry listed leads =>
        rw [Nodes.planned_of_plan plan] at listed
        exact run.leads_known listed leads
    · apply ih _ known
      rw [Stage.opened_memo start unwrap, Function.update_of_ne same]
      exact new
  | written written =>
    rw [Stage.write_memo written] at known
    exact absurd new known
  | ask listed run ih | embed listed run ih | append listed run ih => exact ih new known
  | expanded outside run ih | leaf isGroup listed run ih | group listed run ih => exact ih new known
  | @next _ _ _ _ _ _ middle _ _ _ run remaining ih rest | @more _ _ _ _ _ _ middle _ _ _ _ run remaining ih rest =>
    by_cases early : middle.memo id = none
    · exact rest early known
    · exact remaining.keeps_known (ih new early)

/-- A new builder has a number of its own, unless the node fills another or is the same as another. -/
theorem fresh (run : Run nodes busy task stage outcome later made)
    (underway : Underway nodes busy stage task) {id : NodeId} {builder : BuilderId} (new : stage.memo id = none)
    (found : later.memo id = some builder) :
    stage.size ≤ builder ∨ nodes.Embedded id ∧ builder ∈ busy ∨ ∃ referenced, nodes.plan id = .share referenced := by
  have unchanged {stage : Stage} {id : NodeId} (new : stage.memo id = none) : stage.memo id ≠ some builder := by
    rw [new]
    exact (Option.some_ne_none _).symm
  induction run with
  | known | finished | cut | unresolved | empty => exact absurd found (unchanged new)
  | @shared _ origin _ _ referenced _ _ _ _ plan run ih =>
    by_cases same : id = origin
    · exact Or.inr (Or.inr ⟨referenced, same ▸ plan⟩)
    · simp only [Stage.remember, Function.update_of_ne same] at found
      exact ih (underway.free rfl) new found
  | @opened busy origin target stage _ _ entries own _ filled opened _ _ _ plan start unwrap run ih =>
    have opens := underway.opening start unwrap
    have memo := Stage.opened_memo start unwrap
    by_cases same : id = origin
    · subst same
      have own : own = builder := by
        have known := run.keeps (show opened.memo id = some own by rw [memo, Function.update_self])
        exact Option.some.inj (known.symm.trans found)
      rcases opens.start with rfl | ⟨_, rfl⟩
      · exact Or.inr (Or.inl ⟨underway.embedded _ _ rfl, own ▸ underway.held _ rfl⟩)
      · exact Or.inl (Nat.le_of_eq own)
    · have lacking : opened.memo id = none := by rwa [memo, Function.update_of_ne same]
      rcases ih (underway.opened start unwrap) lacking found with large | ⟨embedded, member⟩ | share
      · exact Or.inl (Nat.le_trans opens.grows.le large)
      · have own (same : builder = own) : stage.size ≤ builder ∨ nodes.Embedded id ∧ builder ∈ busy := by
          rcases opens.start with target | ⟨_, first⟩
          · exact Or.inr ⟨embedded, same ▸ underway.held _ target⟩
          · exact Or.inl (Nat.le_of_eq (same.trans first).symm)
        refine or_assoc.mp (Or.inl ?_)
        rcases List.mem_cons.mp member with inner | member
        · rcases opens.fill with ⟨_, filled⟩ | ⟨_, filled⟩
          · exact own (inner.trans filled)
          · exact Or.inl (by rw [inner, filled]; exact Nat.le_add_right _ _)
        · rcases List.mem_cons.mp member with outer | member
          · exact own outer
          · exact Or.inr ⟨embedded, member⟩
      · exact Or.inr (Or.inr share)
  | written written =>
    rw [Stage.write_memo written] at found
    exact absurd found (unchanged new)
  | ask listed run ih | append listed run ih => exact ih (underway.free rfl) new found
  | embed listed run ih => exact ih (underway.embed (underway.held _ rfl) ⟨_, listed⟩) new found
  | expanded outside run ih | leaf isGroup listed run ih | group listed run ih => exact ih (underway.free rfl) new found
  | @next _ _ _ _ _ _ middle _ _ _ run remaining ih rest =>
    by_cases early : middle.memo id = none
    · exact (rest (underway.rest run) early found).imp_left (Nat.le_trans (underway.first.grows run).le)
    · obtain ⟨other, known⟩ := Option.ne_none_iff_exists'.mp early
      cases (remaining.keeps known).symm.trans found
      exact ih underway.first new known
  | @more _ path part _ stage _ middle _ _ _ _ run remaining ih rest =>
    have first : Underway nodes _ stage (.part path part) := underway.free rfl
    by_cases early : middle.memo id = none
    · exact (rest (first.remaining run) early found).imp_left (Nat.le_trans (first.grows run).le)
    · obtain ⟨other, known⟩ := Option.ne_none_iff_exists'.mp early
      cases (remaining.keeps known).symm.trans found
      exact ih first new known

theorem keeps_shared (run : Run nodes busy task stage outcome later made) (shared : stage.Shared nodes) :
    later.Shared nodes := by
  induction run with
  | known | finished | cut | unresolved | empty => exact shared
  | @shared _ origin _ _ target builder later _ new plan run ih =>
    have held := ih shared
    obtain ⟨_, ⟨⟩, answer⟩ := run.answer
    have keeps := held.remembered plan answer
    intro id number found
    by_cases same : id = origin
    · subst same
      have own : (later.remember id builder).memo id = some builder := Function.update_self _ _ _
      cases own.symm.trans found
      exact .share found plan ((held target builder answer).mono keeps)
    · simp only [Stage.remember, Function.update_of_ne same] at found
      exact (held id number found).mono keeps
  | opened new plan start unwrap run ih =>
    apply ih
    exact Stage.Shared.opened shared new plan (Stage.opened_memo start unwrap)
  | written written =>
    intro id number found
    have memo := Stage.write_memo written
    rw [memo] at found
    exact (shared id number found).mono fun _ _ known => memo ▸ known
  | ask listed run ih | append listed run ih =>
    intro id number found
    exact (ih shared id number found).mono fun _ _ known => known
  | embed listed run ih => exact ih shared
  | expanded outside run ih | leaf isGroup listed run ih | group listed run ih => exact ih shared
  | next run remaining ih rest | more run remaining ih rest => exact rest (ih shared)

/-- What is finished stays so, and what a task adds is finished with it. -/
theorem closed (run : Run nodes busy task stage outcome later made) (underway : Underway nodes busy stage task)
    (shared : stage.Shared nodes) (closed : stage.Closed nodes busy) : later.Closed nodes busy := by
  intro id builder found idle other leads
  cases early : stage.memo id with
  | some known =>
    cases (run.keeps early).symm.trans found
    obtain ⟨second, known, older⟩ := closed id builder early idle other leads
    exact ⟨second, run.keeps known, older⟩
  | none =>
    have known := run.closes early (by rw [found]; exact Option.some_ne_none _) leads
    obtain ⟨second, known⟩ := Option.ne_none_iff_exists'.mp known
    refine ⟨second, known, fun member => ?_⟩
    rcases run.fresh underway early found with large | ⟨_, held⟩ | ⟨referenced, plan⟩
    · exact Nat.lt_of_lt_of_le (underway.range second member) large
    · exact absurd held idle
    · cases leads.shared plan
      have same := ((run.keeps_shared shared id builder found).referred plan).found
      cases same.symm.trans known
      exact absurd member idle

end Run

namespace Stage.Closed
variable {nodes : Nodes} {busy : List BuilderId} {stage : Stage}

theorem opened (closed : stage.Closed nodes busy) {id : NodeId} {target : Option BuilderId}
    {wrapped : Option (Option String)} {builder filled : BuilderId} {opened : Stage} (new : stage.memo id = none)
    (whole : stage.Whole) (held : ∀ builder, target = some builder → builder ∈ busy)
    (memo : opened.memo = Function.update stage.memo id (some builder))
    (opens : Stage.Opening stage id target wrapped builder filled opened) :
    opened.Closed nodes (filled :: builder :: busy) := by
  intro other number found idle next leads
  have outside : other ≠ id := by
    intro same
    rw [same, memo, Function.update_self] at found
    cases found
    exact idle (List.mem_cons_of_mem _ List.mem_cons_self)
  rw [memo, Function.update_of_ne outside] at found
  have rest : number ∉ busy := fun member => idle (List.mem_cons_of_mem _ (List.mem_cons_of_mem _ member))
  obtain ⟨second, known, older⟩ := closed other number found rest next leads
  have apart : next ≠ id := by
    intro same
    rw [same, new] at known
    cases known
  refine ⟨second, by rw [memo, Function.update_of_ne apart]; exact known, fun member => ?_⟩
  have inside := whole.range next second known
  have own (same : second = builder) : second < number := by
    rcases opens.start with target | ⟨_, first⟩
    · exact older (same ▸ held builder target)
    · rw [same, first] at inside
      exact absurd inside (Nat.lt_irrefl _)
  rcases List.mem_cons.mp member with inner | member
  · rcases opens.fill with ⟨_, filled⟩ | ⟨_, filled⟩
    · exact own (inner.trans filled)
    · rw [inner, filled] at inside
      exact absurd inside (Nat.not_lt.mpr (Nat.le_add_right _ _))
  · rcases List.mem_cons.mp member with outer | member
    · exact own outer
    · exact older member

/-- What a finished node climbs to is finished as well. -/
theorem climbs (closed : stage.Closed nodes busy) {memo : NodeId → Option BuilderId}
    (above : ∀ id builder, stage.memo id = some builder → memo id = some builder) {first last : NodeId}
    (awaits : nodes.Awaits memo first last) {number : BuilderId} (found : stage.memo first = some number)
    (idle : number ∉ busy) :
    ∃ other, stage.memo last = some other ∧ other ∉ busy := by
  induction awaits with
  | refl => exact ⟨number, found, idle⟩
  | @tail middle next _ step ih =>
    obtain ⟨number, found, idle⟩ := ih
    obtain ⟨leads, lower, upper, own, known, rises⟩ := step
    have same : lower = number := Option.some.inj (own.symm.trans (above middle number found))
    obtain ⟨second, reached, older⟩ := closed middle number found idle next leads
    have above : upper = second := Option.some.inj (known.symm.trans (above next second reached))
    refine ⟨second, reached, fun member => ?_⟩
    rw [same, above] at rises
    exact Nat.not_lt.mpr rises (older member)

end Stage.Closed

end SchemaClasses
