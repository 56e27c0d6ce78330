import SchemaClasses.Proofs.Derivation.Options

/-! The names of classes. A builder is called after an element, an attribute or a type. A type with a builder of its
own names it before anything else is written into it, and what comes after that changes neither the name nor
what the builder stands for. -/

namespace SchemaClasses

/-- A builder for a class of its own. -/
structure Builder.IsClass (builder : Builder) (className : String) : Prop where
  named : builder.className = some className
  plain : builder.builtin? = none

def Mark.className? : Mark → Option (Option String)
  | declared name => some (name.map Name.camel)
  | className name => some (some (Name.camel name))
  | builtin _ | tag _ | list => none

theorem Mark.apply_className (mark : Mark) (builder : Builder) :
    (mark.apply builder).className = mark.className?.getD builder.className := by
  cases mark <;> rfl

theorem Role.link_className (role : Role) (other : BuilderId) (builder : Builder) :
    (role.link other builder).className = builder.className := by
  cases role <;> rfl

theorem Builder.IsClass.link {builder : Builder} {className : String}
    (isClass : builder.IsClass className) (role : Role) (other : BuilderId) :
    (role.link other builder).IsClass className := by
  refine ⟨(Role.link_className role other builder).trans isClass.named, ?_⟩
  cases role with
  | base | field => exact isClass.plain
  | item | repeated => rfl

/-- An entry that leaves a class as it is, so that it may follow the name. -/
def Entry.Quiet (nodes : Nodes) : Entry → Prop
  | mark .list => True
  | mark _ => False
  | embed inner => (nodes.kindOf inner).isType = false
  | rules _ | plain .. | ask .. | append _ | notice _ => True

def Task.Quiet (nodes : Nodes) : Task → Prop
  | derive id (some _) => (nodes.kindOf id).isType = false
  | entry _ _ single => single.Quiet nodes
  | entries _ _ several => ∀ entry ∈ several, entry.Quiet nodes
  | derive _ none | expand .. | part .. | parts .. => True

namespace Nodes
variable {nodes : Nodes} {id : NodeId}

def className? (nodes : Nodes) (id : NodeId) : Option String :=
  if (nodes.kindOf id).isDeclaration || (nodes.kindOf id).isType then (nodes.get id).name?.map Name.camel else none

theorem className_of_mark {mark : Mark} (listed : .mark mark ∈ nodes.planned id) {written : Option String}
    (writes : mark.className? = some written) : nodes.className? id = written := by
  rcases mem_planned listed with listed | ⟨_, ⟨⟩⟩ | ⟨_, _, ⟨⟩, _⟩
  · obtain ⟨declaration, rfl | ⟨_, rfl⟩⟩ | ⟨isType, name, rfl, named⟩ | rfl := mark_cases listed
    · rw [className?, declaration]
      exact Option.some.inj writes
    · cases writes
    · rw [className?, isType, named, Bool.or_true]
      exact Option.some.inj writes
    · cases writes
  · cases writes

theorem entries_of_type (isType : (nodes.kindOf id).isType) :
    ∃ entries, nodes.entries id = (nodes.get id).name?.toList.map (fun name => .mark (.className name)) ++ entries ∧
      ∀ name, .mark (.className name) ∉ entries := by
  cases construct : (nodes.get id).construct with
  | complexType name mixed isAbstract =>
    refine ⟨_, by simp only [entries, construct, List.append_assoc, Node.name?, Construct.name?]; rfl, fun name => ?_⟩
    simp [Node.modelEntries, attributeEntries]
  | simpleType name =>
    refine ⟨_, by simp only [entries, construct, List.append_assoc, Node.name?, Construct.name?]; rfl, fun name => ?_⟩
    by_cases union : ((nodes.get id).child? .union).isSome = true <;> simp [union]
  | _ => simp [kindOf, Node.kind, construct, Construct.kind, Kind.isType] at isType

section Inner
variable (formed : nodes.Formed) {entry : Entry}
include formed

private theorem quiet_of_unnamed (inner : (nodes.kindOf id).isInner) (listed : entry ∈ nodes.entries id)
    (unnamed : ∀ name, entry ≠ .mark (.className name)) : entry.Quiet nodes := by
  have plain := Kind.not_isDeclaration_of_isInner inner
  cases entry with
  | mark mark =>
    obtain ⟨declaration, _⟩ | ⟨_, name, rfl, _⟩ | rfl := mark_cases listed
    · exact absurd declaration (Bool.eq_false_iff.mp plain)
    · exact absurd rfl (unnamed name)
    · trivial
  | embed other =>
    have embeds : nodes.Embeds id other := by
      rw [Embeds, planned_of_plan (plan_of_inner inner)]
      exact listed
    exact Bool.eq_false_iff.mpr fun isType => absurd (formed.embeds_type embeds isType) (Bool.eq_false_iff.mp plain)
  | rules | plain | ask | append | notice => trivial

theorem Formed.quiet_of_content (inner : (nodes.kindOf id).isInner) (content : (nodes.kindOf id).isType = false)
    (listed : entry ∈ nodes.entries id) : entry.Quiet nodes := by
  refine quiet_of_unnamed formed inner listed fun name same => ?_
  subst same
  obtain ⟨_, stated | ⟨_, builtin⟩⟩ | ⟨isType, _⟩ | list := mark_cases listed
  · cases stated
  · cases builtin
  · exact absurd isType (Bool.eq_false_iff.mp content)
  · cases list

theorem Formed.plan_of_type (isType : (nodes.kindOf id).isType) {className : String}
    (called : nodes.className? id = some className) :
    ∃ name entries, nodes.plan id = .build (nodes.derivationNotices id) none (.mark (.className name) :: entries) ∧
      Name.camel name = className ∧ ∀ entry ∈ entries, entry.Quiet nodes := by
  rw [className?, isType, Bool.or_true, if_pos rfl] at called
  obtain ⟨name, named, same⟩ := Option.map_eq_some_iff.mp called
  obtain ⟨rest, entries, unnamed⟩ := entries_of_type isType
  rw [named] at entries
  have inner := Kind.isInner_of_isType isType
  refine ⟨name, rest, by rw [plan_of_inner inner, entries]; rfl, same, fun entry listed => ?_⟩
  refine quiet_of_unnamed formed inner (entries ▸ List.mem_append_right _ listed) ?_
  rintro name rfl
  exact unnamed name listed

end Inner

end Nodes

namespace Run
variable {nodes : Nodes} {busy : List BuilderId} {task : Task} {stage later : Stage} {outcome : Expansion}
  {made : List Origin}

private theorem write_class {builder : BuilderId} {className : String} {entry : Entry} (inside : builder < stage.size)
    (quiet : entry.Quiet nodes) (isClass : (stage.builders.get builder).IsClass className)
    (written : stage.write builder entry = some later) : (later.builders.get builder).IsClass className := by
  cases entry with
  | mark mark =>
    cases mark with
    | list =>
      cases written
      rw [Stage.edit, Builders.get_modify_same inside]
      exact ⟨isClass.named, rfl⟩
    | _ => cases quiet
  | rules rules =>
    cases written
    exact isClass
  | plain role type =>
    cases written
    rw [Stage.get_plain inside]
    exact isClass.link role _
  | notice _ =>
    cases written
    exact isClass
  | ask | embed | append => cases written

/-- A class stays the same while nothing that names a class is written into its builder. -/
theorem keeps_class (formed : nodes.Formed) (run : Run nodes busy task stage outcome later made)
    (underway : Underway nodes busy stage task) (quiet : task.Quiet nodes) {builder : BuilderId}
    (target : task.target? = some builder) {className : String}
    (isClass : (stage.builders.get builder).IsClass className) : (later.builders.get builder).IsClass className := by
  induction run with
  | known | finished => exact isClass
  | cut | unresolved | empty | expanded | leaf | group | more => cases target
  | @shared busy _ _ stage referenced _ later _ new plan run ih =>
    have inner : Underway nodes busy stage (.derive referenced none) := underway.free rfl
    have same := (inner.grows run).get builder (underway.inside builder target) (Option.some_ne_none _).symm
    change (later.builders.get builder).IsClass className
    rw [same]
    exact isClass
  | @opened _ id target' _ _ _ _ _ _ _ _ _ _ _ plan start unwrap run ih =>
    cases target
    have inner := formed.embedded_kind (underway.embedded _ _ rfl)
    cases plan.symm.trans (Nodes.plan_of_inner inner)
    have entries := ih (underway.opened start unwrap)
    cases start
    cases unwrap
    exact entries (fun entry listed => formed.quiet_of_content inner quiet listed) rfl isClass
  | written written =>
    cases target
    exact write_class (underway.inside builder rfl) quiet isClass written
  | @ask busy _ filled role asked stage other _ _ listed run ih =>
    cases target
    have inner : Underway nodes busy stage (.derive asked none) := underway.free rfl
    rw [(inner.grows run).get_link (underway.inside builder rfl)]
    exact isClass.link role other
  | embed listed run ih =>
    cases target
    exact ih (underway.embed (underway.held _ rfl) ⟨_, listed⟩) quiet rfl isClass
  | @append busy _ _ group stage _ _ _ listed run ih =>
    cases target
    have inner : Underway nodes busy stage (.expand [] group) := underway.free rfl
    rw [(inner.grows run).get_append (underway.inside builder rfl)]
    exact ⟨isClass.named, isClass.plain⟩
  | next run remaining ih rest =>
    obtain ⟨first, others⟩ := List.forall_mem_cons.mp quiet
    exact rest (underway.rest run) others target (ih underway.first first target isClass)

theorem classed (formed : nodes.Formed) (run : Run nodes busy task stage outcome later made)
    (underway : Underway nodes busy stage task) {id : NodeId} {builder : BuilderId}
    (isType : (nodes.kindOf id).isType) (apart : ¬nodes.Embedded id) {className : String}
    (called : nodes.className? id = some className) (new : stage.memo id = none)
    (found : later.memo id = some builder) :
    (later.builders.get builder).IsClass className := by
  obtain ⟨name, rest, plan, rfl, quiet⟩ := formed.plan_of_type isType called
  have owns : nodes.Owns id := ⟨apart, fun referenced share => by cases plan.symm.trans share⟩
  obtain ⟨filled, given, leaves⟩ := run.given underway owns new found
  rw [leaves.get]
  cases given with
  | intro whole same start unwrap underway run =>
    cases plan.symm.trans same
    obtain ⟨fresh, _⟩ := Stage.opened_new whole start unwrap
    cases unwrap
    cases run with
    | next run remaining =>
      refine remaining.keeps_class formed (underway.rest run) quiet rfl ?_
      cases run with
      | written written =>
        cases written
        rw [Stage.edit, Builders.get_modify_same (underway.inside _ rfl), fresh]
        exact ⟨rfl, rfl⟩

end Run

theorem Builders.className_create {builders : Builders} {id : BuilderId} {target : Option Target} :
    ((builders.create { target }).2.get id).className = (builders.get id).className :=
  read_create fun _ => rfl

theorem Builders.className_link {builders : Builders} {id other filled : BuilderId} {role : Role} :
    ((builders.modify filled (role.link other)).get id).className = (builders.get id).className :=
  read_modify (Role.link_className role other)

namespace Stage
variable {nodes : Nodes} {stage later : Stage}

/-- Every class is called after a node, and if that is a type, the builder of the class is that of the type. -/
def Sourced (nodes : Nodes) (stage : Stage) : Prop :=
  ∀ builder className, (stage.builders.get builder).className = some className →
    ∃ id, nodes.className? id = some className ∧ ((nodes.kindOf id).isType → stage.memo id = some builder)

theorem Sourced.kept (sourced : stage.Sourced nodes)
    (same : ∀ builder, (later.builders.get builder).className = (stage.builders.get builder).className)
    (keeps : ∀ id builder, (nodes.kindOf id).isType → stage.memo id = some builder → later.memo id = some builder) :
    later.Sourced nodes := by
  intro builder className named
  rw [same] at named
  obtain ⟨id, called, own⟩ := sourced builder className named
  exact ⟨id, called, fun isType => keeps id builder isType (own isType)⟩

theorem className_opened {id : NodeId} {target : Option BuilderId} {wrapped : Option (Option String)}
    {builder filled other : BuilderId} {started opened : Stage} (start : stage.start target = (builder, started))
    (unwrap : (started.remember id builder).unwrap builder wrapped = (filled, opened)) :
    (opened.builders.get other).className = (stage.builders.get other).className := by
  have starts : (started.builders.get other).className = (stage.builders.get other).className := by
    cases target with
    | some target =>
      cases start
      rfl
    | none =>
      cases start
      exact Builders.className_create
  rw [← starts]
  cases wrapped with
  | none =>
    cases unwrap
    rfl
  | some name =>
    cases unwrap
    exact Builders.className_link.trans Builders.className_create

theorem Sourced.write {id : NodeId} {builder : BuilderId} {entry : Entry} (sourced : stage.Sourced nodes)
    (listed : entry ∈ nodes.planned id) (own : (nodes.kindOf id).isType → stage.memo id = some builder)
    (written : stage.write builder entry = some later) : later.Sourced nodes := by
  cases entry with
  | mark mark =>
    cases written
    cases writes : mark.className? with
    | none =>
      have same (model : Builder) : (mark.apply model).className = model.className := by
        rw [Mark.apply_className, writes]
        rfl
      exact sourced.kept (fun _ => Builders.read_modify same) fun _ _ _ known => known
    | some name =>
      have called := Nodes.className_of_mark listed writes
      intro other className named
      rw [Stage.edit, Builders.get_modify] at named
      split at named
      · next same =>
        rw [Mark.apply_className, writes] at named
        exact ⟨id, called.trans named, same.1 ▸ own⟩
      · exact sourced other className named
  | rules rules =>
    cases written
    exact sourced
  | plain role type =>
    cases written
    refine sourced.kept (fun _ => ?_) fun _ _ _ known => known
    exact Builders.className_link.trans Builders.className_create
  | notice _ =>
    cases written
    exact sourced
  | ask | embed | append => cases written

end Stage

/-- The entries of a type are written into the builder of the type. -/
def Task.Writes (nodes : Nodes) (stage : Stage) : Task → Prop
  | entry id builder single => single ∈ nodes.planned id ∧ ((nodes.kindOf id).isType → stage.memo id = some builder)
  | entries id builder several => several ⊆ nodes.planned id ∧ ((nodes.kindOf id).isType → stage.memo id = some builder)
  | derive .. | expand .. | part .. | parts .. => True

theorem Run.sourced {nodes : Nodes} {busy : List BuilderId} {task : Task} {stage later : Stage} {outcome : Expansion}
    {made : List Origin} (run : Run nodes busy task stage outcome later made) (writes : task.Writes nodes stage)
    (sourced : stage.Sourced nodes) :
    later.Sourced nodes := by
  induction run with
  | known | finished | cut | unresolved | empty => exact sourced
  | @shared _ id _ _ _ _ _ _ new plan run ih =>
    refine (ih trivial sourced).kept (fun _ => rfl) fun other builder isType known => ?_
    have different : other ≠ id := by
      rintro rfl
      obtain ⟨_, kind | kind⟩ := Nodes.share_cases plan
      all_goals
        rw [kind] at isType
        cases isType
    simp only [Stage.remember, Function.update_of_ne different]
    exact known
  | @opened _ id _ _ _ wrapped _ builder _ filled _ _ _ new plan start unwrap run ih =>
    have memo := Stage.opened_memo start unwrap
    refine ih ⟨?_, fun isType => ?_⟩
      (sourced.kept (fun _ => Stage.className_opened start unwrap) fun other number _ known => ?_)
    · rw [Nodes.planned_of_plan plan]
      exact List.Subset.refl _
    · cases plan.symm.trans (Nodes.plan_of_inner (Kind.isInner_of_isType isType))
      cases unwrap
      rw [memo, Function.update_self]
    · have different : other ≠ id := by
        rintro rfl
        cases new.symm.trans known
      rw [memo, Function.update_of_ne different]
      exact known
  | written written => exact sourced.write writes.1 writes.2 written
  | ask listed run ih =>
    exact (ih trivial sourced).kept (fun _ => Builders.className_link) fun _ _ _ known => known
  | embed listed run ih => exact ih trivial sourced
  | append listed run ih =>
    refine (ih trivial sourced).kept (fun _ => ?_) fun _ _ _ known => known
    rw [Stage.append, Stage.edit, Builders.get_pushRules, Builders.pushFields]
    exact Builders.read_modify fun _ => rfl
  | next run remaining ih rest =>
    obtain ⟨listed, own⟩ := writes
    obtain ⟨first, others⟩ := List.cons_subset.mp listed
    exact rest ⟨others, fun isType => run.keeps (own isType)⟩ (ih ⟨first, own⟩ sourced)
  | expanded outside run ih | leaf isGroup listed run ih | group listed run ih => exact ih trivial sourced
  | more run remaining ih rest => exact rest trivial (ih trivial sourced)

/-- What holds of class names while nothing is being filled. -/
structure Stage.Classed (nodes : Nodes) (stage : Stage) : Prop where
  types : ∀ id builder className, (nodes.kindOf id).isType → ¬nodes.Embedded id → nodes.className? id = some className →
    stage.memo id = some builder → (stage.builders.get builder).IsClass className
  sourced : stage.Sourced nodes

namespace Stage.Classed
variable {nodes : Nodes} {stage later : Stage} {task : Task} {outcome : Expansion} {made : List Origin}

theorem empty : Classed nodes { builders := {}, memo := fun _ => none } where
  types _ _ _ _ _ _ found := nomatch found
  sourced _ _ named := nomatch named

theorem after (classed : stage.Classed nodes) (settled : stage.Settled nodes) (formed : nodes.Formed)
    (run : Run nodes [] task stage outcome later made) (target : task.target? = none) : later.Classed nodes where
  types id builder className isType apart named found := by
    have underway := settled.underway target
    cases early : stage.memo id with
    | none => exact run.classed formed underway isType apart named early found
    | some known =>
      cases (run.keeps early).symm.trans found
      rw [(underway.grows run).get builder (settled.whole.range id builder early)
        (by rw [target]; exact (Option.some_ne_none _).symm)]
      exact classed.types id builder className isType apart named early
  sourced := by
    refine run.sourced ?_ classed.sourced
    cases task with
    | entry | entries => cases target
    | derive | expand | part | parts => trivial

end Stage.Classed
end SchemaClasses
