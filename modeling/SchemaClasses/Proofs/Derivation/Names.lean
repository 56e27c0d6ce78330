import SchemaClasses.Proofs.Derivation.Closure

/-! The names of fields. A declaration names its builder before anything else is written into it, and the name
stays. A repeated use of a declaration gets its name last, when the declaration has a builder. -/

namespace SchemaClasses

def Mark.name? : Mark → Option (Option String)
  | declared name => some name
  | tag name => some (some name)
  | className _ | builtin _ | list => none

def Role.name? : Role → Option (Option String)
  | repeated name => some name
  | base | item | field => none

def Entry.name? : Entry → Option (Option String)
  | .mark written => written.name?
  | .plain role _ | .ask role _ => role.name?
  | .rules _ | .embed _ | .append _ | .notice _ => none

theorem Mark.apply_tag (mark : Mark) (builder : Builder) :
    (mark.apply builder).fieldTag = mark.name?.getD builder.fieldTag := by
  cases mark <;> rfl

theorem Role.link_tag (role : Role) (other : BuilderId) (builder : Builder) :
    (role.link other builder).fieldTag = role.name?.getD builder.fieldTag := by
  cases role <;> rfl

def Task.names : Task → List (Option String)
  | .entry _ _ single => single.name?.toList
  | .entries _ _ several => several.filterMap Entry.name?
  | .derive .. | .expand .. | .part .. | .parts .. => []

namespace Nodes

structure Owns (nodes : Nodes) (id : NodeId) : Prop where
  apart : ¬nodes.Embedded id
  alone : ∀ referenced, nodes.plan id ≠ .share referenced

def Reuses (nodes : Nodes) (id : NodeId) : Prop :=
  ∃ decl referenced, (nodes.get id).construct = .element decl ∧ decl.ref = some (.resolved referenced) ∧
  decl.occurs.isMultiple

/-- The name that a declaration states, or the name of a declaration that is missing. -/
def stated? (nodes : Nodes) (id : NodeId) : Option String :=
  match (nodes.get id).construct with
  | .element decl =>
    match decl.ref with
    | none => decl.name
    | some (.named name) => some name
    | some (.resolved _) => none
  | .attr decl =>
    match decl.ref with
    | some (.resolved _) => none
    | _ => decl.name
  | _ => none

variable {nodes : Nodes} {id : NodeId}

private theorem declared_names (name : Option String) (types : List TypeRef) :
    (types.map (TypeRef.declared name)).filterMap Entry.name? = [] := by
  refine List.filterMap_eq_nil_iff.mpr (List.forall_mem_map.mpr fun type _ => ?_)
  cases type <;> rfl

theorem Formed.embedded_names (formed : nodes.Formed) (embedded : nodes.Embedded id) :
    (nodes.planned id).filterMap Entry.name? = [] := by
  obtain ⟨_, plan⟩ := formed.embedded_plan embedded
  have kind := formed.embedded_kind embedded
  have extended (types : List TypeRef) : (types.map TypeRef.extended).filterMap Entry.name? = [] :=
    List.filterMap_eq_nil_iff.mpr (List.forall_mem_map.mpr fun type _ => by cases type <;> rfl)
  have model (node : Node) : node.modelEntries.filterMap Entry.name? = [] :=
    List.filterMap_eq_nil_iff.mpr (List.forall_mem_map.mpr fun _ _ => rfl)
  have attributes (node : Node) : (nodes.attributeEntries node).filterMap Entry.name? = [] := by
    refine List.filterMap_eq_nil_iff.mpr (List.forall_mem_append.mpr ⟨?_, ?_⟩)
    · exact List.forall_mem_map.mpr fun _ _ => rfl
    · exact List.forall_mem_map.mpr fun _ _ => rfl
  rw [planned_of_plan plan]
  cases construct : (nodes.get id).construct with
  | complexType | simpleContent | complexContent | restriction | extension =>
    simp [entries, construct, extended, model, attributes, List.filterMap_map, Function.comp_def,
      Entry.name?, Mark.name?, Role.name?, List.filterMap_cons]
  | simpleType name =>
    by_cases union : ((nodes.get id).child? .union).isSome = true <;>
      simp [entries, construct, union, List.filterMap_map, Function.comp_def, Entry.name?, Mark.name?, Role.name?,
        List.filterMap_cons]
  | list itemType =>
    rcases itemType with _ | (_ | _ | _ | _)
    · cases child : (nodes.get id).child? .simpleType <;>
        simp [entries, construct, Node.itemEntries, child, Entry.name?, Mark.name?, Role.name?, List.filterMap_cons]
    all_goals simp [entries, construct, Node.itemEntries, Entry.name?, Mark.name?, Role.name?, List.filterMap_cons]
  | _ => simp [kindOf, Node.kind, construct, Construct.kind, Kind.isInner] at kind

/-- A name that is stated is the first thing that is written, or it comes before that. -/
theorem plan_of_stated {name : String} (stated : nodes.stated? id = some name) :
    ∃ notices wrapped mark rest, nodes.plan id = .build notices wrapped (.mark mark :: rest) ∧
      mark.name? = some (some name) ∧
      rest.filterMap Entry.name? = [] ∧ (wrapped = none ∨ wrapped = some (some name)) := by
  have embedded (ids : List NodeId) : (ids.map Entry.embed).filterMap Entry.name? = [] :=
    List.filterMap_eq_nil_iff.mpr (List.forall_mem_map.mpr fun _ _ => rfl)
  cases construct : (nodes.get id).construct with
  | element decl =>
    rcases ref : decl.ref with _ | (missing | referenced)
    · simp only [stated?, construct, ref] at stated
      have entries : nodes.entries id = .mark (.declared decl.name) ::
        (decl.type.toList.map (TypeRef.declared decl.name)
          ++ (((nodes.get id).child? .complexType).toList ++
            ((nodes.get id).child? .simpleType).toList).map .embed) := by
        simp [Nodes.entries, construct]
      refine ⟨_, _, .declared decl.name, _, by simp only [plan, construct, ref, entries]; rfl,
        congrArg some stated, ?_, ?_⟩
      · rw [List.filterMap_append, declared_names, embedded]
        rfl
      · split
        · exact Or.inr (congrArg some stated)
        · exact Or.inl rfl
    · simp only [stated?, construct, ref] at stated
      exact ⟨_, _, .tag missing, _, by simp only [plan, construct, ref]; rfl, congrArg some stated, rfl, Or.inl rfl⟩
    · simp [stated?, construct, ref] at stated
  | attr decl =>
    have entries : nodes.entries id = .mark (.declared decl.name) :: (decl.type.toList.map (TypeRef.declared decl.name)
        ++ ((nodes.get id).child? .simpleType).toList.map Entry.embed) := by simp [Nodes.entries, construct]
    have names : (decl.type.toList.map (TypeRef.declared decl.name)
        ++ ((nodes.get id).child? .simpleType).toList.map Entry.embed).filterMap Entry.name? = [] := by
      rw [List.filterMap_append, declared_names, embedded]
      rfl
    obtain ⟨own, type, ref, usage⟩ := decl
    rcases ref with _ | (missing | referenced)
    · simp only [stated?, construct] at stated
      exact ⟨_, _, .declared own, _, by simp only [plan, construct, entries]; rfl, congrArg some stated,
        names, Or.inl rfl⟩
    · simp only [stated?, construct] at stated
      exact ⟨_, _, .declared own, _, by simp only [plan, construct, entries]; rfl, congrArg some stated,
        names, Or.inl rfl⟩
    · simp [stated?, construct] at stated
  | _ => simp [stated?, construct] at stated

/-- What the builder of a node is called as a field in the end. -/
def title (nodes : Nodes) (id : NodeId) : Option String :=
  match nodes.plan id with
  | .build _ (some name) _ => name
  | .build _ none entries => (entries.filterMap Entry.name?).foldl (fun _ name => name) none
  | .share _ => none

theorem title_of_stated {name : String} (stated : nodes.stated? id = some name) : nodes.title id = some name := by
  obtain ⟨_, _, mark, rest, plan, own, quiet, rfl | rfl⟩ := plan_of_stated stated
  · simp only [title, plan, List.filterMap_cons, Entry.name?, own, quiet]
    rfl
  · simp only [title, plan]

/-- A repeated use is named only when what it refers to has a builder. -/
theorem Formed.plan_of_reuses (formed : nodes.Formed) (reuses : nodes.Reuses id) :
    ∃ notices name referenced, nodes.plan id = .build notices none [.ask (.repeated (some name)) referenced] := by
  obtain ⟨decl, referenced, construct, ref, multiple⟩ := reuses
  have use : (nodes.get id).construct.nodeRef? = some (.resolved referenced) := by
    simp [construct, Construct.nodeRef?, ref]
  obtain ⟨name, named⟩ := Option.isSome_iff_exists.mp (formed.ref id referenced use).2.2
  exact ⟨_, name, referenced, by simp only [plan, construct, ref, multiple, named]; rfl⟩

theorem Formed.title_of_reuses (formed : nodes.Formed) (reuses : nodes.Reuses id) : (nodes.title id).isSome := by
  obtain ⟨_, name, _, plan⟩ := formed.plan_of_reuses reuses
  simp only [title, plan]
  rfl

end Nodes

namespace Stage

/-- A stage that goes on from another and leaves one of its builders as it is. -/
structure Leaves (nodes : Nodes) (stage later : Stage) (builder : BuilderId) : Prop where
  get : later.builders.get builder = stage.builders.get builder
  rules : later.builders.rules builder = stage.builders.rules builder
  memo : ∀ id other, (∀ referenced, nodes.plan id ≠ .share referenced) → stage.memo id = some other →
    later.memo id = some other

namespace Leaves
variable {nodes : Nodes} {stage middle later : Stage} {builder : BuilderId}

theorem refl : stage.Leaves nodes stage builder := ⟨rfl, rfl, fun _ _ _ found => found⟩

theorem grow (leaves : stage.Leaves nodes middle builder) {target : Option BuilderId} {made : List Origin}
    (grows : Growth middle later target made) (inside : builder < middle.size) (different : target ≠ some builder)
    (keeps : ∀ id other, middle.memo id = some other → later.memo id = some other) :
    stage.Leaves nodes later builder where
  get := (grows.get builder inside different).trans leaves.get
  rules := (grows.rules builder inside different).trans leaves.rules
  memo id other alone found := keeps id other (leaves.memo id other alone found)

theorem remember (leaves : stage.Leaves nodes later builder) {id referenced : NodeId} {number : BuilderId}
    (plan : nodes.plan id = .share referenced) : stage.Leaves nodes (later.remember id number) builder where
  get := leaves.get
  rules := leaves.rules
  memo other known alone found := by
    have different : other ≠ id := by
      rintro rfl
      exact alone referenced plan
    simp only [Stage.remember, Function.update_of_ne different]
    exact leaves.memo other known alone found

end Leaves
end Stage

/-- A builder that was made for a node, when the node has filled it. -/
inductive Given (nodes : Nodes) (id : NodeId) (builder : BuilderId) : Stage → Prop where
  | intro {busy filled notices wrapped entries made} {stage started opened later : Stage} (whole : stage.Whole)
      (plan : nodes.plan id = .build notices wrapped entries) (start : stage.start none = (builder, started))
      (unwrap : (started.remember id builder).unwrap builder wrapped = (filled, opened))
      (underway : Underway nodes (filled :: builder :: busy) opened (.entries id filled entries))
      (run : Run nodes (filled :: builder :: busy) (.entries id filled entries) opened {} later made) :
      Given nodes id builder later

namespace Run
variable {nodes : Nodes} {busy : List BuilderId} {task : Task} {stage later : Stage} {outcome : Expansion}
  {made : List Origin}

private theorem write_tag {id : NodeId} {builder : BuilderId} {entry : Entry} (inside : builder < stage.size)
    (written : stage.write builder entry = some later) : (later.builders.get builder).fieldTag =
      (Task.entry id builder entry).names.foldl (fun _ name => name) (stage.builders.get builder).fieldTag := by
  cases entry with
  | mark mark =>
    cases written
    rw [Stage.edit, Builders.get_modify_same inside, Mark.apply_tag, Task.names, Entry.name?]
    cases mark.name? <;> rfl
  | rules rules =>
    cases written
    rfl
  | plain role type =>
    cases written
    rw [Stage.get_plain inside, Role.link_tag, Task.names, Entry.name?]
    cases role.name? <;> rfl
  | notice _ =>
    cases written
    rfl
  | ask | embed | append => cases written

/-- A builder is named by what is written into it, and by nothing else. -/
theorem tag (formed : nodes.Formed) (run : Run nodes busy task stage outcome later made)
    (underway : Underway nodes busy stage task) {builder : BuilderId} (target : task.target? = some builder) :
    (later.builders.get builder).fieldTag = task.names.foldl (fun _ name => name)
    (stage.builders.get builder).fieldTag := by
  induction run with
  | known | finished => rfl
  | cut | unresolved | empty | expanded | leaf | group | more => cases target
  | @shared busy _ _ stage referenced _ later _ new plan run ih =>
    have inner : Underway nodes busy stage (.derive referenced none) := underway.free rfl
    have same := (inner.grows run).get builder (underway.inside builder target) (Option.some_ne_none _).symm
    exact congrArg Builder.fieldTag same
  | @opened _ id target' _ _ _ _ _ _ _ _ _ _ _ plan start unwrap run ih =>
    cases target
    have embedded := underway.embedded _ _ rfl
    obtain ⟨_, own⟩ := formed.embedded_plan embedded
    rw [plan] at own
    cases own
    have names := formed.embedded_names embedded
    have planned := Nodes.planned_of_plan plan
    have entries := ih (underway.opened start unwrap)
    cases start
    cases unwrap
    rw [entries rfl, Task.names, ← planned, names]
    rfl
  | written written =>
    cases target
    exact write_tag (underway.inside builder rfl) written
  | @ask busy _ filled role asked stage other _ _ listed run ih =>
    cases target
    have inner : Underway nodes busy stage (.derive asked none) := underway.free rfl
    rw [(inner.grows run).get_link (underway.inside builder rfl), Role.link_tag, Task.names, Entry.name?]
    cases role.name? <;> rfl
  | embed listed run ih =>
    cases target
    exact ih (underway.embed (underway.held _ rfl) ⟨_, listed⟩) rfl
  | @append busy _ _ group stage _ _ _ listed run ih =>
    cases target
    have inner : Underway nodes busy stage (.expand [] group) := underway.free rfl
    rw [(inner.grows run).get_append (underway.inside builder rfl)]
    rfl
  | next run remaining ih rest =>
    have first := ih underway.first target
    rw [rest (underway.rest run) target, first, ← List.foldl_append]
    congr 1
    simp only [Task.names, List.filterMap_cons]
    split <;> simp_all

theorem first (run : Run nodes busy task stage outcome later made)
    (underway : Underway nodes busy stage task) {id : NodeId} {builder : BuilderId} (owns : nodes.Owns id)
    (new : stage.memo id = none) (found : later.memo id = some builder) :
    stage.size ≤ builder := by
  rcases run.fresh underway new found with large | ⟨embedded, _⟩ | ⟨referenced, plan⟩
  · exact large
  · exact absurd embedded owns.apart
  · exact absurd plan (owns.alone referenced)

theorem older (run : Run nodes busy task stage outcome later made)
    (underway : Underway nodes busy stage task) {id : NodeId} {builder : BuilderId} (owns : nodes.Owns id)
    (found : later.memo id = some builder) (inside : builder < stage.size) :
    stage.memo id = some builder := by
  cases early : stage.memo id with
  | none => exact absurd inside (Nat.not_lt.mpr (run.first underway owns early found))
  | some known => exact (run.keeps early).symm.trans found

/-- A builder that is made for a node is filled with what the node says, and then it stays as it is. -/
theorem given (run : Run nodes busy task stage outcome later made) (underway : Underway nodes busy stage task)
    {id : NodeId} {builder : BuilderId} (owns : nodes.Owns id) (new : stage.memo id = none)
    (found : later.memo id = some builder) :
    ∃ filled, Given nodes id builder filled ∧ filled.Leaves nodes later builder := by
  have unchanged {stage : Stage} (new : stage.memo id = none) : stage.memo id ≠ some builder := by
    rw [new]
    exact (Option.some_ne_none _).symm
  induction run with
  | known | finished | cut | unresolved | empty => exact absurd found (unchanged new)
  | @shared _ origin _ _ referenced _ _ _ _ plan run ih =>
    have different : id ≠ origin := by
      intro same
      exact owns.alone referenced (same ▸ plan)
    simp only [Stage.remember, Function.update_of_ne different] at found
    obtain ⟨filled, given, leaves⟩ := ih (underway.free rfl) new found
    exact ⟨filled, given, leaves.remember plan⟩
  | @opened busy origin target stage _ wrapped entries own _ filled opened later _ _ plan start unwrap run ih =>
    have inner : Underway nodes (filled :: own :: busy) opened (.entries origin filled entries) :=
      underway.opened start unwrap
    have memo := Stage.opened_memo start unwrap
    by_cases same : id = origin
    · subst same
      have own : own = builder := by
        have known := run.keeps (show opened.memo id = some own by rw [memo, Function.update_self])
        exact Option.some.inj (known.symm.trans found)
      subst own
      cases target with
      | some target => exact absurd (underway.embedded _ _ rfl) owns.apart
      | none => exact ⟨later, .intro underway.whole plan start unwrap inner run, .refl⟩
    · apply ih inner _ found
      rw [memo, Function.update_of_ne same]
      exact new
  | written written =>
    rw [Stage.write_memo written] at found
    exact absurd found (unchanged new)
  | @ask busy _ own _ asked stage _ _ _ listed run ih =>
    have inner : Underway nodes busy stage (.derive asked none) := underway.free rfl
    obtain ⟨filled, given, leaves⟩ := ih inner new found
    have whole := (inner.grows run).whole
    have different : own ≠ builder :=
      Nat.ne_of_lt (Nat.lt_of_lt_of_le (underway.inside _ rfl) (run.first inner owns new found))
    exact ⟨filled, given, leaves.grow (Stage.growth_modify whole (Role.link_bag _ _)) (whole.range id builder found)
      (fun same => different (Option.some.inj same)) fun _ _ known => known⟩
  | embed listed run ih => exact ih (underway.embed (underway.held _ rfl) ⟨_, listed⟩) new found
  | @append busy _ own group stage _ _ _ listed run ih =>
    have inner : Underway nodes busy stage (.expand [] group) := underway.free rfl
    obtain ⟨filled, given, leaves⟩ := ih inner new found
    have grows := inner.grows run
    have held : own < stage.size := underway.inside _ rfl
    have different : own ≠ builder := Nat.ne_of_lt (Nat.lt_of_lt_of_le held (run.first inner owns new found))
    exact ⟨filled, given, leaves.grow (Stage.growth_append grows.whole (Nat.lt_of_lt_of_le held grows.le))
      (grows.whole.range id builder found) (fun same => different (Option.some.inj same)) fun _ _ known => known⟩
  | expanded outside run ih | leaf isGroup listed run ih | group listed run ih => exact ih (underway.free rfl) new found
  | @next _ _ own _ _ _ middle _ _ _ run remaining ih rest =>
    have task := underway.rest run
    by_cases early : middle.memo id = none
    · exact rest task early found
    · obtain ⟨other, known⟩ := Option.ne_none_iff_exists'.mp early
      cases (remaining.keeps known).symm.trans found
      obtain ⟨filled, given, leaves⟩ := ih underway.first new known
      have different : own ≠ builder :=
        Nat.ne_of_lt (Nat.lt_of_lt_of_le (underway.inside _ rfl) (run.first underway.first owns new known))
      exact ⟨filled, given, leaves.grow (task.grows remaining) (task.whole.range id builder known)
        (fun same => different (Option.some.inj same)) fun _ _ found => remaining.keeps found⟩
  | @more _ path part parts stage _ middle _ _ _ _ run remaining ih rest =>
    have first : Underway nodes _ stage (.part path part) := underway.free rfl
    have task : Underway nodes _ middle (.parts path parts) := first.remaining run
    by_cases early : middle.memo id = none
    · exact rest task early found
    · obtain ⟨other, known⟩ := Option.ne_none_iff_exists'.mp early
      cases (remaining.keeps known).symm.trans found
      obtain ⟨filled, given, leaves⟩ := ih first new known
      exact ⟨filled, given, leaves.grow (task.grows remaining) (task.whole.range id builder known)
        (Option.some_ne_none _).symm
        fun _ _ found => remaining.keeps found⟩

/-- Every node that gets a builder of its own is called by its title. -/
theorem titled (formed : nodes.Formed) (run : Run nodes busy task stage outcome later made)
    (underway : Underway nodes busy stage task) {id : NodeId} {builder : BuilderId} (owns : nodes.Owns id)
    (new : stage.memo id = none) (found : later.memo id = some builder) :
    (later.builders.get builder).fieldTag = nodes.title id := by
  obtain ⟨filled, given, leaves⟩ := run.given underway owns new found
  rw [leaves.get]
  cases given with
  | @intro _ inner _ _ _ _ _ _ _ _ whole plan start unwrap underway run =>
    obtain ⟨fresh, _, outside⟩ := Stage.opened_new whole start unwrap
    rcases outside with rfl | ⟨name, rfl, linked, _⟩
    · cases unwrap
      rw [run.tag formed underway rfl, fresh]
      simp only [Task.names, Nodes.title, plan]
    · have opens := Stage.opening whole Stage.nowhere start unwrap
      obtain ⟨_, last⟩ := opens.fill.resolve_left (by rintro ⟨⟨⟩, _⟩)
      obtain ⟨_, first⟩ := opens.start.resolve_left (Option.some_ne_none _).symm
      have small : builder < inner := by
        rw [first, last]
        exact Nat.lt_succ_self _
      have same := (underway.grows run).get builder (Nat.lt_trans small opens.inside)
        (fun same => Nat.lt_irrefl _ (Option.some.inj same ▸ small))
      rw [same, linked]
      simp only [Nodes.title, plan]
      rfl

end Run

end SchemaClasses
