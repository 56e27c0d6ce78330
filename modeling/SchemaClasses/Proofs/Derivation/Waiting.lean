import SchemaClasses.Proofs.Derivation.Choices

/-! What is known while builders are being filled. They belong to nodes that wait for the one at hand, and
they have the names that those nodes state, but a repeated use that waits has no name. -/

namespace SchemaClasses

namespace Stage

/-- A stage leads to a final one that changes only `busy` builders further. -/
structure Ahead (final later : Stage) (busy : List BuilderId) : Prop where
  memo : ∀ id builder, later.memo id = some builder → final.memo id = some builder
  get : ∀ builder < later.size, builder ∉ busy → final.builders.get builder = later.builders.get builder

/-- The nodes whose builders are being filled wait for a node. -/
def Enclosed (nodes : Nodes) (memo : NodeId → Option BuilderId) (busy : List BuilderId) (stage : Stage)
    (id : NodeId) : Prop :=
  ∀ other builder, nodes.Owns other → stage.memo other = some builder → builder ∈ busy → nodes.Awaits memo other id

/-- Those nodes wait for each of the given ones that is new, or that is to fill the target. -/
def Near (nodes : Nodes) (memo : NodeId → Option BuilderId) (busy : List BuilderId)
    (target : Option BuilderId) (stage : Stage) (ids : List NodeId) : Prop :=
  ∀ id ∈ ids, stage.memo id = none → ∀ number, memo id = some number → stage.size ≤ number ∨ target = some number →
    stage.Enclosed nodes memo busy id

/-- A builder is called as its node states, while the node waits. -/
structure Called (nodes : Nodes) (stage : Stage) (id : NodeId) (builder : BuilderId) : Prop where
  stated : ∀ name, nodes.stated? id = some name → (stage.builders.get builder).fieldTag = some name
  waiting : nodes.Reuses id → stage.builders.fieldName? builder = none

/-- Entries of a node are still to be written. -/
structure Filling (nodes : Nodes) (busy : List BuilderId) (stage : Stage) (id : NodeId) (filled : BuilderId)
    (entries : List Entry) :
    Prop where
  listed : entries <:+ nodes.planned id
  number : ∃ builder ∈ busy, stage.memo id = some builder ∧ builder ≤ filled
  appends : ∀ group, .append group ∈ nodes.planned id → stage.memo id = some filled
  own : ∀ other, nodes.Owns other → stage.memo other = some filled →
    (other = id ∧ (nodes.planned id ≠ entries → ∀ name, nodes.stated? id = some name →
    (stage.builders.get filled).fieldTag = some name) ∧
      (entries ≠ [] → nodes.Reuses id → stage.builders.fieldName? filled = none)) ∨
    (nodes.Embedded id ∧ stage.Called nodes other filled ∧ ¬nodes.Reuses other)

end Stage

/-- What is known of the builder that a task writes into. -/
def Task.Filling (nodes : Nodes) (busy : List BuilderId) (stage : Stage) : Task → Prop
  | .derive _ (some builder) => ∀ other, nodes.Owns other → stage.memo other = some builder →
      stage.Called nodes other builder ∧ ¬nodes.Reuses other
  | .entry id filled single => ∃ rest, stage.Filling nodes busy id filled (single :: rest)
  | .entries id filled several => stage.Filling nodes busy id filled several
  | .derive _ none | .expand .. | .part .. | .parts .. => True

def Task.Near (nodes : Nodes) (memo : NodeId → Option BuilderId) (busy : List BuilderId) (stage : Stage) : Task → Prop
  | .entry id _ _ | .entries id _ _ => stage.Enclosed nodes memo busy id
  | task => stage.Near nodes memo busy task.target? (task.members nodes)

/-- What is filled for each repetition of an element has no content model of its own. -/
theorem Nodes.wrapped_appends (nodes : Nodes) {id group : NodeId} {notices : BuilderId → List Notice}
    {name : Option String} {entries : List Entry} (plan : nodes.plan id = .build notices (some name) entries) :
    .append group ∉ nodes.planned id := by
  cases construct : (nodes.get id).construct with
  | element decl =>
    intro listed
    have listed : .append group ∈ nodes.entries id := by
      rcases Nodes.mem_planned listed with listed | ⟨_, other⟩ | ⟨_, _, other, _⟩
      · exact listed
      · cases other
      · cases other
    have declared : .append group ∉ decl.type.toList.map (TypeRef.declared decl.name) := by
      rcases decl.type with _ | (_ | _ | _ | _) <;> simp [TypeRef.declared]
    simp [Nodes.entries, construct, declared] at listed
  | attr decl =>
    obtain ⟨_, _, ref, _⟩ := decl
    rcases ref with _ | (_ | _) <;> simp [Nodes.plan, construct] at plan
  | _ => simp [Nodes.plan, construct] at plan

/-- Everything that a task relies on as to names. -/
structure Attended (nodes : Nodes) (final : Stage) (busy : List BuilderId) (stage : Stage) (task : Task) : Prop where
  underway : Underway nodes busy stage task
  ahead : final.Ahead stage busy
  shared : stage.Shared nodes
  closed : stage.Closed nodes busy
  called : ∀ id builder, nodes.Owns id → stage.memo id = some builder → builder ∈ busy → task.target? ≠ some builder →
    stage.Called nodes id builder
  filling : task.Filling nodes busy stage
  near : task.Near nodes final.memo busy stage

namespace Stage
variable {nodes : Nodes} {memo : NodeId → Option BuilderId} {final stage later : Stage}
  {busy : List BuilderId} {task : Task}
  {outcome : Expansion} {made : List Origin}

theorem Ahead.before (ahead : final.Ahead later busy) (run : Run nodes busy task stage outcome later made)
    (underway : Underway nodes busy stage task) : final.Ahead stage busy where
  memo id builder found := ahead.memo id builder (run.keeps found)
  get builder inside idle := by
    have grows := underway.grows run
    rw [ahead.get builder (Nat.lt_of_lt_of_le inside grows.le) idle]
    exact grows.get builder inside fun target => idle (underway.held builder target)

theorem Ahead.mono {more : List BuilderId} (ahead : final.Ahead later busy) (held : ∀ builder ∈ busy, builder ∈ more) :
    final.Ahead later more :=
  ⟨ahead.memo, fun builder inside idle => ahead.get builder inside fun member => idle (held builder member)⟩

theorem Ahead.unchanged {changed : Stage} (ahead : final.Ahead changed busy) (memo : changed.memo = later.memo)
    (size : changed.size = later.size)
    (get : ∀ builder, builder ∉ busy → changed.builders.get builder = later.builders.get builder) :
    final.Ahead later busy where
  memo id builder found := ahead.memo id builder (memo ▸ found)
  get builder inside idle := (ahead.get builder (size ▸ inside) idle).trans (get builder idle)

theorem Enclosed.after {id : NodeId} (enclosed : stage.Enclosed nodes memo busy id)
    (run : Run nodes busy task stage outcome later made) (underway : Underway nodes busy stage task) :
    later.Enclosed nodes memo busy id :=
  fun other builder owns found member =>
    enclosed other builder owns (run.older underway owns found (underway.range builder member)) member

theorem Enclosed.climb {id next : NodeId} (enclosed : stage.Enclosed nodes memo busy id)
    (climbs : nodes.Climbs memo id next) :
    stage.Enclosed nodes memo busy next :=
  fun other builder owns found member => (enclosed other builder owns found member).tail climbs

theorem Near.after {ids : List NodeId} {target : Option BuilderId} (near : stage.Near nodes memo busy target ids)
    (run : Run nodes busy task stage outcome later made) (underway : Underway nodes busy stage task) :
    later.Near nodes memo busy target ids := by
  intro id member new number found large
  have grows := underway.grows run
  have enclosed := near id member (run.lacks new) number found (large.imp_left (Nat.le_trans grows.le))
  exact enclosed.after run underway

end Stage

namespace Run
variable {nodes : Nodes} {stage later : Stage} {busy : List BuilderId} {task : Task} {outcome : Expansion}
  {made : List Origin}

/-- Only the builder that is written into may get another name. -/
theorem keeps_called (run : Run nodes busy task stage outcome later made) (underway : Underway nodes busy stage task)
    (called : ∀ id builder, nodes.Owns id → stage.memo id = some builder → builder ∈ busy →
      task.target? ≠ some builder →
      stage.Called nodes id builder) :
    ∀ id builder, nodes.Owns id → later.memo id = some builder → builder ∈ busy → task.target? ≠ some builder →
      later.Called nodes id builder := by
  intro id builder owns found member target
  have inside := underway.range builder member
  have own := called id builder owns (run.older underway owns found inside) member target
  have same := (underway.grows run).get builder inside target
  constructor
  · rw [same]
    exact own.stated
  · rw [Builders.fieldName?, same]
    exact own.waiting

end Run

namespace Stage.Filling
variable {nodes : Nodes} {stage later : Stage} {busy : List BuilderId} {id : NodeId}
  {filled : BuilderId} {single : Entry}
  {several : List Entry} {outcome : Expansion} {made : List Origin}

/-- Names are stated first, so whatever is asked for finds the builder named. -/
theorem called (filling : stage.Filling nodes busy id filled (single :: several))
    (asks : ∀ mark, single ≠ .mark mark) {other : NodeId} (owns : nodes.Owns other)
    (found : stage.memo other = some filled) : stage.Called nodes other filled := by
  rcases filling.own other owns found with ⟨rfl, stated, waiting⟩ | ⟨_, called, _⟩
  · refine ⟨fun name own => stated (fun same => ?_) name own, waiting (List.cons_ne_nil _ _)⟩
    obtain ⟨_, _, mark, _, plan, _⟩ := Nodes.plan_of_stated own
    rw [Nodes.planned_of_plan plan] at same
    cases same
    exact asks mark rfl
  · exact called

theorem rest (formed : nodes.Formed) (filling : stage.Filling nodes busy id filled (single :: several))
    (underway : Underway nodes busy stage (.entry id filled single))
    (run : Run nodes busy (.entry id filled single) stage outcome later made) :
    later.Filling nodes busy id filled several where
  listed := (List.suffix_cons _ _).trans filling.listed
  number := by
    obtain ⟨builder, member, found, le⟩ := filling.number
    exact ⟨builder, member, run.keeps found, le⟩
  appends group listed := run.keeps (filling.appends group listed)
  own other owns found := by
    have tag := run.tag formed underway rfl
    have known := run.older underway owns found (underway.inside filled rfl)
    rcases filling.own other owns known with ⟨rfl, stated, _⟩ | ⟨embedded, called, once⟩
    · refine Or.inl ⟨rfl, fun _ name own => ?_, fun more reuses => ?_⟩
      · obtain ⟨_, _, mark, rest, plan, named, quiet, _⟩ := Nodes.plan_of_stated own
        have planned := Nodes.planned_of_plan plan
        rw [tag]
        by_cases whole : nodes.planned other = single :: several
        · rw [planned] at whole
          cases whole
          simp only [Task.names, Entry.name?, named]
          rfl
        · have suffix := filling.listed
          rw [planned, List.suffix_cons_iff] at suffix
          have member : single ∈ rest :=
            (suffix.resolve_left fun same => whole (planned.trans same.symm)).subset List.mem_cons_self
          have unnamed := List.filterMap_eq_nil_iff.mp quiet single member
          simp only [Task.names, unnamed]
          exact stated whole name own
      · obtain ⟨_, _, _, plan⟩ := Nodes.Formed.plan_of_reuses formed reuses
        have length := filling.listed.length_le
        rw [Nodes.planned_of_plan plan] at length
        exact absurd (List.eq_nil_of_length_eq_zero (Nat.le_zero.mp (Nat.le_of_succ_le_succ length))) more
    · have member : single ∈ nodes.planned id := filling.listed.subset List.mem_cons_self
      have unnamed := List.filterMap_eq_nil_iff.mp (formed.embedded_names embedded) single member
      refine Or.inr ⟨embedded, ⟨fun name own => ?_, fun reuses => absurd reuses once⟩, once⟩
      rw [tag]
      simp only [Task.names, unnamed]
      exact called.stated name own

end Stage.Filling

namespace Attended
variable {nodes : Nodes} {final stage later : Stage} {busy : List BuilderId} {task : Task} {outcome : Expansion}
  {made : List Origin}
  {id : NodeId} {target : Option BuilderId} {filled : BuilderId} {single : Entry} {several : List Entry}

theorem free (attended : Attended nodes final busy stage task) {other : Task} (target : other.target? = none)
    (called : ∀ id builder, nodes.Owns id → stage.memo id = some builder → builder ∈ busy →
      stage.Called nodes id builder)
    (filling : other.Filling nodes busy stage) (near : other.Near nodes final.memo busy stage) :
    Attended nodes final busy stage other where
  underway := attended.underway.free target
  ahead := attended.ahead
  shared := attended.shared
  closed := attended.closed
  called id builder owns found member _ := called id builder owns found member
  filling := filling
  near := near

theorem all_called (attended : Attended nodes final busy stage task) (target : task.target? = none) (id : NodeId)
    (builder : BuilderId) (owns : nodes.Owns id) (found : stage.memo id = some builder) (member : builder ∈ busy) :
    stage.Called nodes id builder :=
  attended.called id builder owns found member (by rw [target]; exact (Option.some_ne_none _).symm)

theorem after (attended : Attended nodes final busy stage task) (run : Run nodes busy task stage outcome later made)
    (ahead : final.Ahead later busy) {other : Task} (underway : Underway nodes busy later other)
    (target : other.target? = task.target?) (filling : other.Filling nodes busy later)
    (near : other.Near nodes final.memo busy later) :
    Attended nodes final busy later other where
  underway := underway
  ahead := ahead
  shared := run.keeps_shared attended.shared
  closed := run.closed attended.underway attended.shared attended.closed
  called := target ▸ run.keeps_called attended.underway attended.called
  filling := filling
  near := near

theorem first (attended : Attended nodes final busy stage (.entries id filled (single :: several))) :
    Attended nodes final busy stage (.entry id filled single) where
  underway := attended.underway.first
  ahead := attended.ahead
  shared := attended.shared
  closed := attended.closed
  called := attended.called
  filling := ⟨several, attended.filling⟩
  near := attended.near

theorem rest (formed : nodes.Formed)
    (attended : Attended nodes final busy stage (.entries id filled (single :: several)))
    (run : Run nodes busy (.entry id filled single) stage outcome later made) (ahead : final.Ahead later busy) :
    Attended nodes final busy later (.entries id filled several) := by
  have first := attended.first
  have filling : later.Filling nodes busy id filled several := attended.filling.rest formed first.underway run
  have near : later.Enclosed nodes final.memo busy id := Stage.Enclosed.after attended.near run first.underway
  exact first.after run ahead (attended.underway.rest run) rfl filling near

theorem remaining {path : List NodeId} {part : Part} {parts : List Part}
    (attended : Attended nodes final busy stage (.parts path (part :: parts)))
    (first : Attended nodes final busy stage (.part path part))
    (run : Run nodes busy (.part path part) stage outcome later made) (ahead : final.Ahead later busy) :
    Attended nodes final busy later (.parts path parts) := by
  have near : stage.Near nodes final.memo busy none (parts.flatMap (nodes.partMembers path)) := by
    intro id member
    refine attended.near id ?_
    rw [Task.members, List.flatMap_cons]
    exact List.mem_append_right _ member
  exact first.after run ahead (first.underway.remaining run) rfl trivial (near.after run first.underway)

theorem part {path : List NodeId} {part : Part} {parts : List Part}
    (attended : Attended nodes final busy stage (.parts path (part :: parts))) :
    Attended nodes final busy stage (.part path part) := by
  have near : stage.Near nodes final.memo busy none (nodes.partMembers path part) := by
    intro id member
    refine attended.near id ?_
    rw [Task.members, List.flatMap_cons]
    exact List.mem_append_left _ member
  exact attended.free rfl (attended.all_called rfl) trivial near

theorem shares (formed : nodes.Formed) (attended : Attended nodes final busy stage (.derive id target))
    {referenced : NodeId} (new : stage.memo id = none) (plan : nodes.plan id = .share referenced) {number : BuilderId}
    (found : final.memo id = some number) (known : final.memo referenced = some number) :
    Attended nodes final busy stage (.derive referenced none) := by
  have bare : target = none := by
    cases target with
    | none => rfl
    | some builder => exact absurd (attended.underway.embedded _ _ rfl) (formed.share_not_embedded plan)
  subst bare
  have near : stage.Near nodes final.memo busy none [referenced] := by
    intro other member _ large same bound
    cases List.mem_singleton.mp member
    cases known.symm.trans same
    have enclosed : stage.Enclosed nodes final.memo busy id :=
      attended.near id List.mem_cons_self new number found bound
    exact enclosed.climb ⟨.share plan, number, number, found, known, Nat.le_refl _⟩
  exact attended.free rfl (attended.all_called rfl) trivial near

/-- What the content of a node leads to has no older builder, if it is new. -/
theorem climbs (attended : Attended nodes final busy stage (.entry id filled single)) {next : NodeId}
    (leads : nodes.Leads id next) {number : BuilderId} (found : final.memo next = some number)
    (large : stage.size ≤ number ∨ filled = number) :
    nodes.Climbs final.memo id next := by
  obtain ⟨_, filling⟩ := attended.filling
  obtain ⟨builder, member, known, le⟩ := filling.number
  refine ⟨leads, builder, number, attended.ahead.memo id builder known, found, ?_⟩
  rcases large with large | rfl
  · exact Nat.le_of_lt (Nat.lt_of_lt_of_le (attended.underway.range builder member) large)
  · exact le

private theorem near_led (attended : Attended nodes final busy stage (.entry id filled single)) {ids : List NodeId}
    (leads : ∀ next ∈ ids, nodes.Leads id next) {target : Option BuilderId}
    (own : ∀ builder, target = some builder → filled = builder) :
    stage.Near nodes final.memo busy target ids := by
  intro next member _ number found large
  have enclosed : stage.Enclosed nodes final.memo busy id := attended.near
  exact enclosed.climb (attended.climbs (leads next member) found (large.imp_right (own number)))

private theorem entry_called (attended : Attended nodes final busy stage (.entry id filled single))
    (asks : ∀ mark, single ≠ .mark mark) (other : NodeId) (builder : BuilderId) (owns : nodes.Owns other)
    (found : stage.memo other = some builder) (member : builder ∈ busy) :
    stage.Called nodes other builder := by
  obtain ⟨_, filling⟩ := attended.filling
  by_cases same : filled = builder
  · subst same
    exact filling.called asks owns found
  · exact attended.called other builder owns found member fun target => same (Option.some.inj target)

theorem asks {role : Role} {asked : NodeId}
    (attended : Attended nodes final busy stage (.entry id filled (.ask role asked)))
    (listed : .ask role asked ∈ nodes.planned id) : Attended nodes final busy stage (.derive asked none) := by
  have near : stage.Near nodes final.memo busy none [asked] :=
    attended.near_led (fun _ member => .entry listed member) (fun _ same => absurd same.symm (Option.some_ne_none _))
  exact attended.free rfl (attended.entry_called (fun mark => Entry.noConfusion)) trivial near

theorem embeds (formed : nodes.Formed) {inner : NodeId}
    (attended : Attended nodes final busy stage (.entry id filled (.embed inner)))
    (listed : .embed inner ∈ nodes.planned id) : Attended nodes final busy stage (.derive inner (some filled)) where
  underway := attended.underway.embed (attended.underway.held _ rfl) ⟨_, listed⟩
  ahead := attended.ahead
  shared := attended.shared
  closed := attended.closed
  called := attended.called
  filling other owns found := by
    obtain ⟨_, filling⟩ := attended.filling
    refine ⟨filling.called (fun mark => Entry.noConfusion) owns found, ?_⟩
    rcases filling.own other owns found with ⟨rfl, _⟩ | ⟨_, _, once⟩
    · intro reuses
      obtain ⟨_, _, _, plan⟩ := Nodes.Formed.plan_of_reuses formed reuses
      rw [Nodes.planned_of_plan plan, List.mem_singleton] at listed
      cases listed
    · exact once
  near := attended.near_led (fun _ member => .entry listed member) fun _ same => Option.some.inj same

theorem appends {group : NodeId} (attended : Attended nodes final busy stage (.entry id filled (.append group)))
    (listed : .append group ∈ nodes.planned id) : Attended nodes final busy stage (.expand [] group) := by
  have near : stage.Near nodes final.memo busy none (nodes.members [] group) :=
    attended.near_led (fun _ member => .entry listed member) (fun _ same => absurd same.symm (Option.some_ne_none _))
  exact attended.free rfl (attended.entry_called (fun mark => Entry.noConfusion)) trivial near

section Opened
variable {notices : BuilderId → List Notice} {wrapped : Option (Option String)} {entries : List Entry}
  {builder : BuilderId}
  {started opened : Stage} (attended : Attended nodes final busy stage (.derive id target)) (new : stage.memo id = none)
  (plan : nodes.plan id = .build notices wrapped entries) (start : stage.start target = (builder, started))
  (unwrap : (started.remember id builder).unwrap builder wrapped = (filled, opened))
include attended new plan start unwrap

omit new in
private theorem opened_onto (formed : nodes.Formed) {onto : BuilderId} (into : target = some onto) :
    nodes.Embedded id ∧ builder = onto ∧ filled = onto ∧ opened.builders = stage.builders := by
  subst into
  have embedded := attended.underway.embedded _ _ rfl
  obtain ⟨_, own⟩ := formed.embedded_plan embedded
  rw [plan] at own
  cases own
  cases start
  cases unwrap
  exact ⟨embedded, rfl, rfl, rfl⟩

/-- A builder that is being filled when a node is begun is that of the node, or it was being filled before. -/
private theorem opened_cases {other : NodeId} {number : BuilderId} (found : opened.memo other = some number)
    (member : number ∈ filled :: builder :: busy) :
    other = id ∧ number = builder ∨ other ≠ id ∧ stage.memo other = some number ∧ number ∈ busy := by
  have memo := Stage.opened_memo start unwrap
  have opens := attended.underway.opening start unwrap
  by_cases same : other = id
  · subst same
    rw [memo, Function.update_self] at found
    exact Or.inl ⟨rfl, (Option.some.inj found).symm⟩
  · rw [memo, Function.update_of_ne same] at found
    have inside := attended.underway.whole.range other number found
    have own (equal : number = builder) : number ∈ busy := by
      rcases opens.start with into | ⟨_, fresh⟩
      · exact equal ▸ attended.underway.held builder into
      · rw [equal, fresh] at inside
        exact absurd inside (Nat.lt_irrefl _)
    refine Or.inr ⟨same, found, ?_⟩
    rcases List.mem_cons.mp member with inner | member
    · rcases opens.fill with ⟨_, bare⟩ | ⟨_, last⟩
      · exact own (inner.trans bare)
      · rw [inner, last] at inside
        exact absurd inside (Nat.not_lt.mpr (Nat.le_add_right _ _))
    · exact (List.mem_cons.mp member).elim own fun member => member

private theorem opened_called (formed : nodes.Formed) (other : NodeId) (number : BuilderId) (owns : nodes.Owns other)
    (found : opened.memo other = some number) (member : number ∈ filled :: builder :: busy)
    (apart : some filled ≠ some number) :
    opened.Called nodes other number := by
  have opens := attended.underway.opening start unwrap
  rcases attended.opened_cases new plan start unwrap found member with ⟨rfl, rfl⟩ | ⟨_, known, member⟩
  · have bare : target = none := by
      cases target with
      | none => rfl
      | some onto => exact absurd (attended.underway.embedded _ _ rfl) owns.apart
    subst bare
    obtain ⟨_, _, rfl | ⟨name, rfl, linked, _⟩⟩ := Stage.opened_new attended.underway.whole start unwrap
    · cases unwrap
      exact absurd rfl apart
    · constructor
      · intro stated own
        obtain ⟨_, _, _, _, built, _, _, rfl | rfl⟩ := Nodes.plan_of_stated own
        · cases plan.symm.trans built
        · cases plan.symm.trans built
          rw [linked]
          rfl
      · intro reuses
        obtain ⟨_, _, _, built⟩ := formed.plan_of_reuses reuses
        cases plan.symm.trans built
  · have other : target ≠ some number := by
      intro into
      obtain ⟨_, _, same, _⟩ := attended.opened_onto plan start unwrap formed into
      exact apart (congrArg some same)
    have same := opens.grows.get number (attended.underway.range number member) other
    obtain ⟨stated, waiting⟩ := attended.called _ number owns known member other
    exact ⟨by rwa [same], by rwa [Builders.fieldName?, same]⟩

private theorem opened_filling (formed : nodes.Formed) :
    opened.Filling nodes (filled :: builder :: busy) id filled entries := by
  have opens := attended.underway.opening start unwrap
  have memo := Stage.opened_memo start unwrap
  have planned := Nodes.planned_of_plan plan
  have own : opened.memo id = some builder := by rw [memo, Function.update_self]
  refine ⟨planned ▸ List.suffix_rfl, ⟨builder, List.mem_cons_of_mem _ List.mem_cons_self, own, ?_⟩,
    fun group listed => ?_, ?_⟩
  · rcases opens.fill with ⟨_, bare⟩ | ⟨_, last⟩
    · exact Nat.le_of_eq bare.symm
    · rcases opens.start with into | ⟨bare, fresh⟩
      · obtain ⟨_, same, equal, _⟩ := attended.opened_onto plan start unwrap formed into
        exact Nat.le_of_eq (same.trans equal.symm)
      · rw [fresh, last]
        exact Nat.le_add_right _ _
  · rcases opens.fill with ⟨_, bare⟩ | ⟨⟨name, rfl⟩, _⟩
    · rw [own, bare]
    · exact absurd listed (nodes.wrapped_appends plan)
  · intro other owns found
    rcases attended.opened_cases new plan start unwrap found List.mem_cons_self with ⟨rfl, same⟩ | ⟨_, known, _⟩
    · refine Or.inl ⟨rfl, fun whole => absurd planned whole, fun _ _ => ?_⟩
      have bare : target = none := by
        cases target with
        | none => rfl
        | some onto => exact absurd (attended.underway.embedded _ _ rfl) owns.apart
      subst bare
      obtain ⟨fresh, _⟩ := Stage.opened_new attended.underway.whole start unwrap
      rw [Builders.fieldName?, fresh]
      rfl
    · have inside := attended.underway.whole.range other filled known
      rcases opens.start with into | ⟨_, fresh⟩
      · obtain ⟨embedded, _, same, builders⟩ := attended.opened_onto plan start unwrap formed into
        have filling : (Task.derive id (some builder)).Filling nodes busy stage := into ▸ attended.filling
        obtain ⟨⟨stated, waiting⟩, once⟩ := filling other owns (same ▸ known)
        refine Or.inr ⟨embedded, ⟨?_, ?_⟩, once⟩
        · rwa [builders, same]
        · rwa [builders, same]
      · rcases opens.fill with ⟨_, bare⟩ | ⟨_, last⟩
        · rw [bare, fresh] at inside
          exact absurd inside (Nat.lt_irrefl _)
        · rw [last] at inside
          exact absurd inside (Nat.not_lt.mpr (Nat.le_add_right _ _))

/-- A node that is begun waits for itself, and so does all that waits for it. -/
private theorem opened_enclosed (ahead : final.Ahead opened (filled :: builder :: busy)) :
    opened.Enclosed nodes final.memo (filled :: builder :: busy) id := by
  have memo := Stage.opened_memo start unwrap
  have opens := attended.underway.opening start unwrap
  have own : final.memo id = some builder := ahead.memo id builder (by rw [memo, Function.update_self])
  intro other number owns found member
  rcases attended.opened_cases new plan start unwrap found member with ⟨rfl, _⟩ | ⟨_, known, member⟩
  · exact .refl
  · have near : stage.Near nodes final.memo busy target [id] := attended.near
    refine near id List.mem_cons_self new builder own ?_ other number owns known member
    rcases opens.start with into | ⟨_, fresh⟩
    · exact Or.inr into
    · exact Or.inl (Nat.le_of_eq fresh.symm)

theorem opens (formed : nodes.Formed) (ahead : final.Ahead opened (filled :: builder :: busy)) :
    Attended nodes final (filled :: builder :: busy) opened (.entries id filled entries) where
  underway := attended.underway.opened start unwrap
  ahead := ahead
  shared := attended.shared.opened new plan (Stage.opened_memo start unwrap)
  closed := attended.closed.opened new attended.underway.whole attended.underway.held (Stage.opened_memo start unwrap)
    (attended.underway.opening start unwrap)
  called := attended.opened_called new plan start unwrap formed
  filling := attended.opened_filling new plan start unwrap formed
  near := attended.opened_enclosed new plan start unwrap ahead

end Opened

end Attended

end SchemaClasses
