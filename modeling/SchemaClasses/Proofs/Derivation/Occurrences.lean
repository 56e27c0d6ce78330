import SchemaClasses.Proofs.Derivation.Waiting

/-! Occurrences of choices. Whatever is derived in whatever order, each choice in the content of a node leaves
one rule in the builder of the node, and the rule has the names of all fields but those that were early. -/

namespace SchemaClasses

/-- Builders of their own are called by the titles of their nodes. -/
def Stage.Titled (nodes : Nodes) (stage : Stage) : Prop :=
  ∀ id builder, nodes.Owns id → stage.memo id = some builder → (stage.builders.get builder).fieldTag = nodes.title id

/-- A node belongs to a builder through the node that the builder was made for. -/
theorem Stage.Belongs.owner {nodes : Nodes} {stage : Stage} {leaf : NodeId} {builder : BuilderId}
    (formed : nodes.Formed) (belongs : stage.Belongs nodes leaf builder) (apart : ¬nodes.Embedded leaf) :
    ∃ owner, nodes.Owns owner ∧ stage.memo owner = some builder ∧
    (nodes.Stated leaf → ∃ name, nodes.stated? owner = some name) ∧
      (nodes.Repeats leaf → nodes.Reuses owner) ∧
      ∀ memo : NodeId → Option BuilderId, (∀ id builder, stage.memo id = some builder → memo id = some builder) →
        nodes.Awaits memo leaf owner := by
  induction belongs with
  | @own id builder found alone =>
    refine ⟨id, ⟨apart, alone⟩, found, fun stated => ?_, fun repeats => ?_, fun _ _ => .refl⟩
    · cases stated with
      | own stated => exact ⟨_, stated⟩
      | share plan => exact absurd plan (alone _)
    · cases repeats with
      | own reuses => exact reuses
      | share plan => exact absurd plan (alone _)
  | @share id referenced builder found plan belongs ih =>
    obtain ⟨owner, owns, known, stated, repeats, awaits⟩ := ih (formed.share_apart plan)
    refine ⟨owner, owns, known, fun own => ?_, fun own => ?_, fun memo above => ?_⟩
    · cases own with
      | own named =>
        obtain ⟨_, _, _, _, built, _⟩ := Nodes.plan_of_stated named
        cases plan.symm.trans built
      | share same inner =>
        cases plan.symm.trans same
        exact stated inner
    · cases own with
      | own reuses =>
        obtain ⟨_, _, _, built⟩ := formed.plan_of_reuses reuses
        cases plan.symm.trans built
      | share same inner =>
        cases plan.symm.trans same
        exact repeats inner
    · have climbs : nodes.Climbs memo id referenced :=
        ⟨.share plan, builder, builder, above _ _ found, above _ _ belongs.found, Nat.le_refl _⟩
      exact .head climbs (awaits memo above)

theorem Stage.Titled.repeats {nodes : Nodes} {stage : Stage} (formed : nodes.Formed) (titled : stage.Titled nodes)
    (shared : stage.Shared nodes) {leaf : NodeId} (apart : ¬nodes.Embedded leaf) (known : stage.memo leaf ≠ none)
    (repeats : nodes.Repeats leaf) : (stage.fieldName? leaf).isSome := by
  obtain ⟨builder, found⟩ := Option.ne_none_iff_exists'.mp known
  obtain ⟨owner, owns, held, _, reuses, _⟩ := (shared leaf builder found).owner formed apart
  obtain ⟨name, title⟩ := Option.isSome_iff_exists.mp (formed.title_of_reuses (reuses repeats))
  have tag := (titled owner builder owns held).trans title
  simp [Stage.fieldName?, found, Builders.fieldName?, Builder.fieldName?, tag]

theorem Attended.offers {nodes : Nodes} {final stage : Stage} {busy : List BuilderId} {task : Task}
    (formed : nodes.Formed) (attended : Attended nodes final busy stage task) (target : task.target? = none)
    (titled : final.Titled nodes) (shared : final.Shared nodes) {id : NodeId} {number : BuilderId}
    (own : final.memo id = some number) (member : number ∈ busy) (enclosed : stage.Enclosed nodes final.memo busy id)
    {leaf : NodeId} {builder : BuilderId} (apart : ¬nodes.Embedded leaf) (found : stage.memo leaf = some builder) :
    Offers nodes final id leaf (stage.builders.fieldName? builder) := by
  obtain ⟨owner, owns, held, stated, reuses, leads⟩ := (attended.shared leaf builder found).owner formed apart
  have above := attended.ahead.memo
  have known := above leaf builder found
  have last : final.fieldName? leaf = final.builders.fieldName? builder := by simp [Stage.fieldName?, known]
  -- A field whose builder is finished waits for nothing that is not.
  have waits (awaits : nodes.Awaits final.memo leaf id) : builder ∈ busy := by
    by_contra idle
    obtain ⟨other, known, finished⟩ := attended.closed.climbs above awaits found idle
    cases own.symm.trans (above id other known)
    exact finished member
  constructor
  · intro timely
    rw [last]
    by_cases filled : builder ∈ busy
    · have awaits : nodes.Awaits final.memo leaf id :=
        (leads final.memo above).trans (enclosed owner builder owns held filled)
      obtain ⟨name, named⟩ := stated (by_contra fun silent => timely ⟨awaits, silent⟩)
      have early := (attended.all_called target owner builder owns held filled).stated name named
      have title := (titled owner builder owns (above owner builder held)).trans (nodes.title_of_stated named)
      rw [Builders.fieldName?, Builders.fieldName?, Builder.fieldName?, Builder.fieldName?, early, title]
      rfl
    · have inside := attended.underway.whole.range leaf builder found
      rw [Builders.fieldName?, Builders.fieldName?, attended.ahead.get builder inside filled]
  · intro late repeats
    have waiting := (attended.all_called target owner builder owns held (waits late.1)).waiting (reuses repeats)
    exact ⟨waiting, titled.repeats formed shared apart (Option.ne_none_iff_exists'.mpr ⟨builder, known⟩) repeats⟩

theorem Run.members_apart {nodes : Nodes} {busy : List BuilderId} {task : Task} {stage later : Stage}
    {outcome : Expansion} {made : List Origin} (formed : nodes.Formed)
    (run : Run nodes busy task stage outcome later made) :
    ∀ id ∈ task.members nodes, (∃ target, task = .derive id target) ∨ ¬nodes.Embedded id := by
  have other {task : Task} {id : NodeId} (different : ∀ id target, task ≠ .derive id target)
      (either : (∃ target, task = .derive id target) ∨ ¬nodes.Embedded id) : ¬nodes.Embedded id :=
    either.resolve_left fun ⟨target, same⟩ => different id target same
  induction run with
  | known | shared | opened =>
    intro id member
    cases List.mem_singleton.mp member
    exact Or.inl ⟨_, rfl⟩
  | written | ask | embed | append | finished | next | unresolved
  | empty => exact fun _ member => absurd member List.not_mem_nil
  | cut inside =>
    intro id member
    rw [Task.members, Nodes.members_of_mem inside] at member
    cases member
  | expanded outside run ih =>
    intro id member
    rw [Task.members, Nodes.members_of_not_mem outside] at member
    exact Or.inr (other (fun _ _ => Task.noConfusion) (ih id member))
  | leaf isGroup listed run ih =>
    intro id member
    cases List.mem_singleton.mp member
    exact Or.inr (formed.leaf_apart isGroup listed)
  | group listed run ih =>
    intro id member
    exact Or.inr (other (fun _ _ => Task.noConfusion) (ih id member))
  | more run remaining ih rest =>
    intro id member
    rw [Task.members, List.flatMap_cons] at member
    rcases List.mem_append.mp member with member | member
    · exact Or.inr (other (fun _ _ => Task.noConfusion) (ih id member))
    · exact Or.inr (other (fun _ _ => Task.noConfusion) (rest id member))

/-- The choices among some occurrences that are in the content of a node. -/
def contentOf (occurrences : List (NodeId × List NodeId)) (id : NodeId) : List (List NodeId) :=
  (occurrences.filter fun occurrence => occurrence.1 = id).map Prod.snd

theorem contentOf_append (occurrences more : List (NodeId × List NodeId)) (id : NodeId) :
    contentOf (occurrences ++ more) id = contentOf occurrences id ++ contentOf more id := by
  simp only [contentOf, List.filter_append, List.map_append]

/-- The choices that a task itself adds to the content of a node. -/
def Task.adds (nodes : Nodes) : Task → NodeId → List (List NodeId)
  | .entry origin _ single, id => if id = origin then single.choices nodes else []
  | .entries origin _ several, id => if id = origin then several.flatMap (Entry.choices nodes) else []
  | .derive .., _ | .expand .., _ | .part .., _ | .parts .., _ => []

/-- The occurrences of choices while a task goes on, in order. Each is recorded for the builder of its node. -/
structure Logged (nodes : Nodes) (final : Stage) (task : Task) (stage later : Stage)
    (occurrences : List (NodeId × List NodeId)) : Prop where
  content : ∀ id, contentOf occurrences id =
    task.adds nodes id ++ if stage.memo id = none ∧ later.memo id ≠ none then nodes.contentChoices id else []
  recorded : ∀ builder, ∃ added, later.builders.choices builder = stage.builders.choices builder ++ added ∧
    List.Forall₂ (fun occurrence options => Offered nodes final occurrence.1 occurrence.2 options)
      (occurrences.filter fun occurrence => final.memo occurrence.1 = some builder) added

namespace Logged
variable {nodes : Nodes} {final stage middle later : Stage} {task first rest : Task}
  {occurrences more : List (NodeId × List NodeId)}

theorem nothing (adds : ∀ id, task.adds nodes id = []) (memo : later.memo = stage.memo)
    (same : ∀ builder, later.builders.choices builder = stage.builders.choices builder) :
    Logged nodes final task stage later [] where
  content id := by
    rw [adds id, memo, if_neg fun both => both.2 both.1]
    rfl
  recorded builder := ⟨[], by rw [same, List.append_nil], .nil⟩

theorem trans (logged : Logged nodes final first stage middle occurrences)
    (further : Logged nodes final rest middle later more)
    (adds : ∀ id, task.adds nodes id = first.adds nodes id ++ rest.adds nodes id)
    (known : ∀ id, rest.adds nodes id ≠ [] → stage.memo id ≠ none)
    (keeps : ∀ id, stage.memo id ≠ none → middle.memo id ≠ none)
    (remains : ∀ id, middle.memo id ≠ none → later.memo id ≠ none) :
    Logged nodes final task stage later (occurrences ++ more) where
  content id := by
    rw [contentOf_append, logged.content, further.content, adds id]
    by_cases old : stage.memo id = none
    · by_cases early : middle.memo id = none
      · simp [old, early]
      · have silent : rest.adds nodes id = [] := by
          by_contra own
          exact known id own old
        simp [old, early, remains id early, silent]
    · simp [old, keeps id old]
  recorded builder := by
    obtain ⟨added, own, offered⟩ := logged.recorded builder
    obtain ⟨others, last, offers⟩ := further.recorded builder
    refine ⟨added ++ others, by rw [last, own, List.append_assoc], ?_⟩
    rw [List.filter_append]
    exact List.rel_append offered offers

/-- A task that starts where another does and differs from it in nothing that is recorded. -/
theorem same (logged : Logged nodes final first stage middle occurrences)
    (adds : ∀ id, task.adds nodes id = first.adds nodes id) (memo : later.memo = middle.memo)
    (choices : ∀ builder, later.builders.choices builder = middle.builders.choices builder) :
    Logged nodes final task stage later occurrences where
  content id := by rw [logged.content, adds id, memo]
  recorded builder := by
    obtain ⟨added, own, offered⟩ := logged.recorded builder
    exact ⟨added, (choices builder).trans own, offered⟩

theorem append {id group : NodeId} {filled : BuilderId} {content : Expansion}
    (logged : Logged nodes final first stage middle occurrences) (adds : ∀ other, first.adds nodes other = [])
    (own : final.memo id = some filled) (known : stage.memo id ≠ none)
    (offered : List.Forall₂ (Offered nodes final id) (nodes.choices [] group) content.choices) (whole : middle.Whole)
    (inside : filled < middle.size) :
    Logged nodes final (.entry id filled (.append group)) stage (middle.append filled content)
      (occurrences ++ (nodes.choices [] group).map (Prod.mk id)) where
  content other := by
    have memo : (middle.append filled content).memo = middle.memo := rfl
    rw [contentOf_append, logged.content, adds, memo]
    by_cases same : other = id
    · subst same
      simp [contentOf, Task.adds, Entry.choices, known, List.filter_map, Function.comp_def]
    · have different : ¬id = other := fun equal => same equal.symm
      simp [contentOf, Task.adds, same, different, List.filter_map, Function.comp_def]
  recorded builder := by
    obtain ⟨added, old, offers⟩ := logged.recorded builder
    rw [List.filter_append, Stage.append_choices whole inside, old, List.append_assoc]
    refine ⟨_, rfl, List.rel_append offers ?_⟩
    by_cases same : builder = filled
    · subst same
      have all : ((nodes.choices [] group).map (Prod.mk id)).filter
        (fun occurrence => decide (final.memo occurrence.1 = some builder)) =
          (nodes.choices [] group).map (Prod.mk id) :=
        List.filter_eq_self.mpr (List.forall_mem_map.mpr fun _ _ => decide_eq_true own)
      rw [if_pos rfl, all, List.forall₂_map_left_iff]
      exact offered
    · have none : ((nodes.choices [] group).map (Prod.mk id)).filter
        (fun occurrence => decide (final.memo occurrence.1 = some builder)) =
          [] := by
        refine List.filter_eq_nil_iff.mpr (List.forall_mem_map.mpr fun _ _ found => ?_)
        cases own.symm.trans (of_decide_eq_true found)
        exact same rfl
      rw [if_neg same, none]
      exact .nil

end Logged

theorem Nodes.planned_rules {nodes : Nodes} {id : NodeId} {rules : List Rule}
    (listed : .rules rules ∈ nodes.planned id) :
    rules.filterMap Rule.options? = [] := by
  suffices facets : ∃ facets : Facets, rules = facets.rules by
    obtain ⟨facets, rfl⟩ := facets
    exact facets.rules_options
  have declared (name : Option String) (types : List TypeRef) : .rules rules ∉ types.map (TypeRef.declared name) := by
    intro member
    obtain ⟨type, _, same⟩ := List.mem_map.mp member
    cases type <;> cases same
  have extended (types : List TypeRef) : .rules rules ∉ types.map TypeRef.extended := by
    intro member
    obtain ⟨type, _, same⟩ := List.mem_map.mp member
    cases type <;> cases same
  have item (node : Node) (itemType : Option TypeRef) : .rules rules ∉ node.itemEntries itemType := by
    rcases itemType with _ | (_ | _ | _ | _)
    · cases child : node.child? .simpleType <;> simp [Node.itemEntries, child]
    all_goals simp [Node.itemEntries]
  rcases mem_planned listed with listed | ⟨_, ⟨⟩⟩ | ⟨_, _, ⟨⟩, _⟩
  cases construct : (nodes.get id).construct with
  | restriction base facets =>
    simp [entries, construct, extended, Node.modelEntries, attributeEntries] at listed
    exact ⟨facets, listed⟩
  | simpleType name =>
    by_cases union : ((nodes.get id).child? .union).isSome = true <;> simp [entries, construct, union] at listed
  | _ => simp [entries, construct, declared, extended, item, Node.modelEntries, attributeEntries] at listed

/-- A task records the choices that it meets, and what it stands for has the options that it offers. -/
structure Recorded (nodes : Nodes) (final : Stage) (busy : List BuilderId) (task : Task) (stage later : Stage)
    (outcome : Expansion) :
    Prop where
  logged : ∃ occurrences, Logged nodes final task stage later occurrences
  offered : ∀ id number, final.memo id = some number → number ∈ busy → stage.Enclosed nodes final.memo busy id →
    List.Forall₂ (Offered nodes final id) (task.choices nodes) outcome.choices

namespace Recorded
variable {nodes : Nodes} {final stage middle later : Stage} {busy : List BuilderId} {outcome : Expansion}

theorem silent {task : Task} {occurrences : List (NodeId × List NodeId)}
    (logged : Logged nodes final task stage later occurrences) (choices : task.choices nodes = []) :
    Recorded nodes final busy task stage later {} where
  logged := ⟨occurrences, logged⟩
  offered := by simp [choices]

theorem shared {id referenced : NodeId} {builder : BuilderId} {target : Option BuilderId}
    (recorded : Recorded nodes final busy (.derive referenced none) stage later { fields := [builder] })
    (plan : nodes.plan id = .share referenced) :
    Recorded nodes final busy (.derive id target) stage (later.remember id builder) { fields := [builder] } where
  logged := by
    obtain ⟨occurrences, logged⟩ := recorded.logged
    refine ⟨occurrences, fun other => ?_, logged.recorded⟩
    rw [logged.content]
    by_cases same : other = id
    · subst same
      simp [Task.adds, Nodes.contentChoices, Nodes.planned_of_share plan]
    · simp only [Task.adds, Stage.remember, Function.update_of_ne same]
  offered _ _ _ _ _ := .nil

theorem opened {id : NodeId} {builder filled : BuilderId} {target : Option BuilderId}
    {notices : BuilderId → List Notice} {wrapped : Option (Option String)} {entries : List Entry}
    {started opened : Stage} {held : List BuilderId} (whole : stage.Whole) (new : stage.memo id = none)
    (plan : nodes.plan id = .build notices wrapped entries) (start : stage.start target = (builder, started))
    (unwrap : (started.remember id builder).unwrap builder wrapped = (filled, opened))
    (recorded : Recorded nodes final held (.entries id filled entries) opened later {}) (known : later.memo id ≠ none) :
    Recorded nodes final busy (.derive id target) stage later { fields := [builder] } where
  logged := by
    obtain ⟨occurrences, logged⟩ := recorded.logged
    have memo := Stage.opened_memo start unwrap
    refine ⟨occurrences, fun other => ?_, fun number => ?_⟩
    · rw [logged.content, memo]
      by_cases same : other = id
      · subst same
        simp [Task.adds, Nodes.contentChoices, Nodes.planned_of_plan plan, new, known]
      · simp only [Task.adds, if_neg same, Function.update_of_ne same]
    · rw [← Stage.opened_choices whole start unwrap]
      exact logged.recorded number
  offered _ _ _ _ _ := .nil

theorem expanded {path : List NodeId} {id : NodeId} {content : Expansion} (outside : id ∉ path)
    (recorded : Recorded nodes final busy (.parts (id :: path) (nodes.parts id)) stage later content)
    (offered : ∀ other number, final.memo other = some number → number ∈ busy →
      stage.Enclosed nodes final.memo busy other →
      Offered nodes final other (nodes.members path id) (content.fields.filterMap later.builders.fieldName?)) :
    Recorded nodes final busy (.expand path id) stage later (nodes.optioned id later content) where
  logged := by
    obtain ⟨occurrences, logged⟩ := recorded.logged
    exact ⟨occurrences, logged.same (fun _ => rfl) rfl fun _ => rfl⟩
  offered other number own member enclosed := by
    have inner := recorded.offered other number own member enclosed
    rw [Task.choices, Nodes.choices_of_not_mem outside]
    unfold Nodes.optioned
    split
    · exact List.rel_append inner (.cons (offered other number own member enclosed) .nil)
    · rw [List.append_nil]
      exact inner

theorem part {path : List NodeId} {single : Part} {inner : Task}
    (recorded : Recorded nodes final busy inner stage later outcome)
    (choices : inner.choices nodes = nodes.partChoices path single) (adds : ∀ id, inner.adds nodes id = []) :
    Recorded nodes final busy (.part path single) stage later outcome where
  logged := by
    obtain ⟨occurrences, logged⟩ := recorded.logged
    exact ⟨occurrences, logged.same (fun id => (adds id).symm) rfl fun _ => rfl⟩
  offered id number own member enclosed := by
    rw [Task.choices, ← choices]
    exact recorded.offered id number own member enclosed

theorem written {id : NodeId} {filled : BuilderId} {single : Entry}
    (attended : Attended nodes final busy stage (.entry id filled single))
    (written : stage.write filled single = some later) :
    Recorded nodes final busy (.entry id filled single) stage later {} := by
  have quiet (rules : List Rule) (same : single = .rules rules) : rules.filterMap Rule.options? = [] := by
    obtain ⟨rest, filling⟩ := attended.filling
    exact Nodes.planned_rules (filling.listed.subset (same ▸ List.mem_cons_self))
  have adds (other : NodeId) : (Task.entry id filled single).adds nodes other = [] := by
    cases single with
    | ask | embed | append => cases written
    | _ => exact ite_self _
  have inside := attended.underway.inside filled rfl
  exact .silent (.nothing adds (Stage.write_memo written) fun _ =>
    Stage.write_choices attended.underway.whole inside quiet written) rfl

theorem next {id : NodeId} {filled : BuilderId} {single : Entry} {several : List Entry} {held : List BuilderId}
    (first : Recorded nodes final busy (.entry id filled single) stage middle {})
    (others : Recorded nodes final held (.entries id filled several) middle later {}) (known : stage.memo id ≠ none)
    (keeps : ∀ id, stage.memo id ≠ none → middle.memo id ≠ none)
    (remains : ∀ id, middle.memo id ≠ none → later.memo id ≠ none) :
    Recorded nodes final busy (.entries id filled (single :: several)) stage later {} := by
  obtain ⟨occurrences, logged⟩ := first.logged
  obtain ⟨more, further⟩ := others.logged
  refine .silent (logged.trans further (fun other => ?_) (fun other adds => ?_) keeps remains) rfl
  · by_cases same : other = id <;> simp [Task.adds, same]
  · by_cases same : other = id
    · simp [same, known]
    · exact absurd (if_neg same) adds

theorem more {path : List NodeId} {part : Part} {parts : List Part} {content contents : Expansion}
    (first : Recorded nodes final busy (.part path part) stage middle content)
    (others : Recorded nodes final busy (.parts path parts) middle later contents)
    (enclosed : ∀ id, stage.Enclosed nodes final.memo busy id → middle.Enclosed nodes final.memo busy id)
    (keeps : ∀ id, stage.memo id ≠ none → middle.memo id ≠ none)
    (remains : ∀ id, middle.memo id ≠ none → later.memo id ≠ none) :
    Recorded nodes final busy (.parts path (part :: parts)) stage later (Expansion.join [content, contents]) where
  logged := by
    obtain ⟨occurrences, logged⟩ := first.logged
    obtain ⟨more, further⟩ := others.logged
    exact ⟨_, logged.trans further (fun _ => rfl) (fun _ adds => absurd rfl adds) keeps remains⟩
  offered id number own member inside := by
    have last := others.offered id number own member (enclosed id inside)
    simpa [Expansion.join, Task.choices] using List.rel_append (first.offered id number own member inside) last

end Recorded

/-- If a node got a builder while the one that it stands for was derived, it is the one that it gets after that. -/
private theorem Stage.Ahead.remembered {nodes : Nodes} {final later : Stage} {busy : List BuilderId}
    {id referenced : NodeId} {builder : BuilderId} (ahead : final.Ahead (later.remember id builder) busy)
    (shared : later.Shared nodes) (plan : nodes.plan id = .share referenced)
    (known : later.memo referenced = some builder) : final.Ahead later busy := by
  refine ⟨fun other number found => ahead.memo other number ?_, ahead.get⟩
  by_cases same : other = id
  · subst same
    have referred := (shared other number found).referred plan
    cases referred.found.symm.trans known
    exact Function.update_self ..
  · simp only [Stage.remember, Function.update_of_ne same]
    exact found

namespace Run
variable {nodes : Nodes} {final stage later : Stage} {busy : List BuilderId} {task : Task} {outcome : Expansion}
  {made : List Origin}

private theorem offers_members {path : List NodeId} {id : NodeId} {content : Expansion} (formed : nodes.Formed)
    (titled : final.Titled nodes) (shared : final.Shared nodes) (outside : id ∉ path)
    (run : Run nodes busy (.parts (id :: path) (nodes.parts id)) stage content later made)
    (attended : Attended nodes final busy stage (.parts (id :: path) (nodes.parts id))) (ahead : final.Ahead later busy)
    {other : NodeId} {number : BuilderId} (own : final.memo other = some number) (member : number ∈ busy)
    (enclosed : stage.Enclosed nodes final.memo busy other) :
    Offered nodes final other (nodes.members path id) (content.fields.filterMap later.builders.fieldName?) := by
  have done : Attended nodes final busy later (.parts (id :: path) []) :=
    attended.after run ahead (attended.underway.remaining run) rfl trivial fun _ absent =>
      absurd absent List.not_mem_nil
  have fields : content.fields.map some = (nodes.members path id).map later.memo := by
    rw [Nodes.members_of_not_mem outside]
    exact run.fields
  refine ⟨content.fields.map later.builders.fieldName?, ?_, by rw [List.reduceOption, List.filterMap_map]; rfl⟩
  have apart (leaf : NodeId) (among : leaf ∈ nodes.members path id) : ¬nodes.Embedded leaf := by
    rw [Nodes.members_of_not_mem outside] at among
    exact (run.members_apart formed leaf among).resolve_left fun ⟨_, same⟩ => Task.noConfusion same
  have found : List.Forall₂ (fun leaf builder => later.memo leaf = some builder)
      (nodes.members path id) content.fields := by
    rw [← List.forall₂_map_right_iff (f := some), ← List.forall₂_map_left_iff (f := later.memo), ← fields]
    exact List.forall₂_refl _
  refine List.forall₂_map_right_iff.mpr
    ((List.forall₂_and_left _ _).mpr ⟨apart, found⟩ |>.imp fun leaf builder both => ?_)
  exact done.offers formed rfl titled shared own member (enclosed.after run attended.underway) both.1 both.2

/-- Whatever a task does, each choice that it meets leaves one rule, and the rule has the options that the
choice offers. -/
theorem recorded (formed : nodes.Formed) (titled : final.Titled nodes) (shared : final.Shared nodes)
    (run : Run nodes busy task stage outcome later made) (attended : Attended nodes final busy stage task)
    (ahead : final.Ahead later busy) : Recorded nodes final busy task stage later outcome := by
  induction run with
  | known found => exact ⟨⟨[], .nothing (fun _ => rfl) rfl fun _ => rfl⟩, fun _ _ _ _ _ => .nil⟩
  | finished => exact .silent (.nothing (fun _ => ite_self _) rfl fun _ => rfl) rfl
  | unresolved | empty => exact .silent (.nothing (fun _ => rfl) rfl fun _ => rfl) rfl
  | cut inside => exact .silent (.nothing (fun _ => rfl) rfl fun _ => rfl) (Nodes.choices_of_mem inside)
  | @shared busy id target stage referenced builder later _ new plan run ih =>
    obtain ⟨_, ⟨⟩, known⟩ := run.answer
    have below : final.Ahead later busy := ahead.remembered (run.keeps_shared attended.shared) plan known
    have own : final.memo id = some builder := ahead.memo id builder (Function.update_self ..)
    exact (ih (attended.shares formed new plan own (below.memo _ _ known)) below).shared plan
  | @opened busy id target stage notices wrapped entries builder started filled opened later _ new plan
    start unwrap run ih =>
    have inner : Underway nodes (filled :: builder :: busy) opened (.entries id filled entries) :=
      attended.underway.opened start unwrap
    have wider : final.Ahead later (filled :: builder :: busy) :=
      ahead.mono fun _ member => List.mem_cons_of_mem _ (List.mem_cons_of_mem _ member)
    have entered := attended.opens new plan start unwrap formed (wider.before run inner)
    have known : opened.memo id = some builder := by rw [Stage.opened_memo start unwrap, Function.update_self]
    exact .opened attended.underway.whole new plan start unwrap (ih entered wider) (run.keeps_known (by simp [known]))
  | written written => exact .written attended written
  | @ask busy id filled role asked stage other later _ listed run ih =>
    have below : final.Ahead later busy := ahead.unchanged rfl Builders.size_modify fun builder idle =>
      Builders.get_modify_other fun same => idle (same ▸ attended.underway.held filled rfl)
    obtain ⟨occurrences, logged⟩ := (ih (attended.asks listed) below).logged
    exact .silent (logged.same (fun _ => ite_self _) rfl fun _ => Builders.choices_modify (Role.link_bag _ _)) rfl
  | embed listed run ih =>
    obtain ⟨occurrences, logged⟩ := (ih (attended.embeds formed listed) ahead).logged
    exact .silent (logged.same (fun _ => ite_self _) rfl fun _ => rfl) rfl
  | @append busy id filled group stage content later _ listed run ih =>
    have inner := attended.appends listed
    have inside := attended.underway.inside filled rfl
    have below : final.Ahead later busy := ahead.unchanged rfl Builders.size_modify fun builder idle => by
      have different : builder ≠ filled := fun same => idle (same ▸ attended.underway.held filled rfl)
      rw [Stage.get_append_other different]
    obtain ⟨rest, filling⟩ := attended.filling
    have known := filling.appends group listed
    have own := attended.ahead.memo id filled known
    have expansion := ih inner below
    obtain ⟨occurrences, logged⟩ := expansion.logged
    have offered := expansion.offered id filled own (attended.underway.held filled rfl) attended.near
    have grows := inner.underway.grows run
    exact .silent (logged.append (fun _ => rfl) own (by simp [known]) offered grows.whole
      (Nat.lt_of_lt_of_le inside grows.le)) rfl
  | @next _ id filled single several stage middle later _ _ run remaining ih rest =>
    have below := ahead.before remaining (attended.underway.rest run)
    obtain ⟨_, _, known, _⟩ := attended.filling.number
    exact (ih attended.first below).next (rest (attended.rest formed run below) ahead) (by simp [known])
      (fun _ => run.keeps_known)
      fun _ => remaining.keeps_known
  | @expanded busy path id stage content later _ outside run ih =>
    have near : stage.Near nodes final.memo busy none ((nodes.parts id).flatMap (nodes.partMembers (id :: path))) := by
      rw [← Nodes.members_of_not_mem outside]
      exact attended.near
    have inner : Attended nodes final busy stage (.parts (id :: path) (nodes.parts id)) :=
      attended.free rfl (attended.all_called rfl) trivial near
    exact .expanded outside (ih inner ahead) fun _ _ own member enclosed =>
      offers_members formed titled shared outside run inner ahead own member enclosed
  | leaf isGroup listed run ih =>
    exact (ih (attended.free rfl (attended.all_called rfl) trivial attended.near) ahead).part rfl fun _ => rfl
  | group listed run ih =>
    exact (ih (attended.free rfl (attended.all_called rfl) trivial attended.near) ahead).part rfl fun _ => rfl
  | @more _ path part parts stage content middle contents later _ _ run remaining ih rest =>
    have below := ahead.before remaining (attended.part.underway.remaining run)
    exact (ih attended.part below).more (rest (attended.remaining attended.part run below) ahead)
      (fun _ enclosed => enclosed.after run attended.part.underway) (fun _ => run.keeps_known) fun _ =>
        remaining.keeps_known

end Run

end SchemaClasses
