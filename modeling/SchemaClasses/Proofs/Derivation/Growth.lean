import SchemaClasses.Proofs.Builder.Changes
import SchemaClasses.Proofs.Derivation.Run

/-! A run adds builders and memo entries and keeps those that are there. Of the builders that are there it
changes only the one that its task writes into. -/

namespace SchemaClasses

theorem Mark.apply_bag (mark : Mark) (builder : Builder) : (mark.apply builder).bag = builder.bag := by
  cases mark <;> rfl

theorem Role.link_bag (role : Role) (other : BuilderId) (builder : Builder) :
    (role.link other builder).bag = builder.bag := by
  cases role <;> rfl

namespace Stage

structure Whole (stage : Stage) : Prop where
  tidy : stage.builders.Tidy
  range : ∀ id builder, stage.memo id = some builder → builder < stage.size

theorem Whole.empty : Whole { builders := {}, memo := fun _ => none } :=
  ⟨.empty, fun _ _ found => absurd found.symm (Option.some_ne_none _)⟩

theorem nowhere {bound : Nat} (builder : BuilderId) (same : none = some builder) : builder < bound :=
  absurd same.symm (Option.some_ne_none _)

structure Growth (stage later : Stage) (target : Option BuilderId) (made : List Origin) : Prop where
  size : later.size = stage.size + made.length
  get : ∀ builder < stage.size, target ≠ some builder → later.builders.get builder = stage.builders.get builder
  rules : ∀ builder < stage.size, target ≠ some builder → later.builders.rules builder = stage.builders.rules builder
  whole : later.Whole

section Changes
variable {stage : Stage} {builder : BuilderId} {target : Option BuilderId}

theorem Growth.refl (whole : stage.Whole) : Growth stage stage target [] :=
  ⟨rfl, fun _ _ _ => rfl, fun _ _ _ => rfl, whole⟩

/-- Two growths one after the other. What the second writes into is new, or it is what the first writes into. -/
theorem Growth.trans {middle later : Stage} {inner : Option BuilderId} {first rest : List Origin}
    (grows : Growth stage middle target first) (remaining : Growth middle later inner rest)
    (same : ∀ builder < stage.size, inner = some builder → target = some builder) :
    Growth stage later target (first ++ rest) where
  size := by rw [remaining.size, grows.size, List.length_append, Nat.add_assoc]
  get builder inside other := by
    have larger : builder < middle.size := by rw [grows.size]; omega
    rw [remaining.get builder larger fun writes => other (same builder inside writes), grows.get builder inside other]
  rules builder inside other := by
    have larger : builder < middle.size := by rw [grows.size]; omega
    rw [remaining.rules builder larger fun writes => other (same builder inside writes),
      grows.rules builder inside other]
  whole := remaining.whole

theorem Growth.le {later : Stage} {made : List Origin} (grows : Growth stage later target made) :
    stage.size ≤ later.size := by
  rw [grows.size]
  exact Nat.le_add_right _ _

theorem Growth.anywhere {later : Stage} {made : List Origin} (grows : Growth stage later none made) :
    Growth stage later target made :=
  ⟨grows.size, fun builder inside _ => grows.get builder inside (Option.some_ne_none _).symm,
    fun builder inside _ => grows.rules builder inside (Option.some_ne_none _).symm, grows.whole⟩

theorem Growth.changed {middle later : Stage} {made : List Origin} (grows : Growth stage middle none made)
    (changes : Growth middle later target []) : Growth stage later target made := by
  simpa using grows.anywhere.trans changes fun _ _ same => same

theorem Growth.remember {later : Stage} {made : List Origin} {id : NodeId} (grows : Growth stage later target made)
    (inside : builder < later.size) : Growth stage (later.remember id builder) target made where
  size := grows.size
  get := grows.get
  rules := grows.rules
  whole := by
    refine ⟨grows.whole.tidy, fun other found known => ?_⟩
    by_cases same : other = id
    · subst same
      simp only [Stage.remember, Function.update_self, Option.some.injEq] at known
      exact known ▸ inside
    · simp only [Stage.remember, Function.update_of_ne same] at known
      exact grows.whole.range other found known

theorem growth_modify (whole : stage.Whole) {f : Builder → Builder} (keeps : ∀ builder, (f builder).bag = builder.bag) :
    Growth stage (stage.edit (·.modify builder f)) (some builder) [] where
  size := Builders.size_modify
  get _ _ different := Builders.get_modify_other fun same => different (same ▸ rfl)
  rules _ _ _ := Builders.rules_modify keeps
  whole := ⟨whole.tidy.modify keeps, fun id _ found => by
    have inside := whole.range id _ found
    simpa only [size, edit, Builders.size_modify] using inside⟩

theorem growth_pushRules (whole : stage.Whole) {rules : List Rule} (inside : builder < stage.size) :
    Growth stage (stage.edit (·.pushRules builder rules)) (some builder) [] where
  size := rfl
  get _ _ _ := rfl
  rules _ within different :=
    Builders.rules_pushRules_other whole.tidy inside within fun same => different (same ▸ rfl)
  whole := ⟨whole.tidy.pushRules, whole.range⟩

theorem growth_create (whole : stage.Whole) (made : Builder) (origin : Origin) :
    Growth stage (stage.edit fun builders => (builders.create made).2) none [origin] where
  size := Builders.size_create
  get _ inside _ := Builders.get_create_old inside
  rules _ inside _ := Builders.rules_create_old whole.tidy inside
  whole := ⟨whole.tidy.create, fun id _ found => by
    have inside := whole.range id _ found
    exact Nat.lt_of_lt_of_eq (Nat.lt_succ_of_lt inside) Builders.size_create.symm⟩

theorem opened_memo {id : NodeId} {wrapped : Option (Option String)} {filled : BuilderId} {started opened : Stage}
    (start : stage.start target = (builder, started))
    (unwrap : (started.remember id builder).unwrap builder wrapped = (filled, opened)) :
    opened.memo = Function.update stage.memo id (some builder) := by
  cases target <;> cases start <;> cases wrapped <;> cases unwrap <;> rfl

theorem write_memo {entry : Entry} {later : Stage} (written : stage.write builder entry = some later) :
    later.memo = stage.memo := by
  cases entry <;> cases written <;> rfl

/-- What is there when the entries of a node are to be written. -/
structure Opening (stage : Stage) (id : NodeId) (target : Option BuilderId) (wrapped : Option (Option String))
    (builder filled : BuilderId) (opened : Stage) : Prop where
  grows : Growth stage opened target (startOrigins id target ++ unwrapOrigins id wrapped)
  start : target = some builder ∨ target = none ∧ builder = stage.size
  fill : wrapped = none ∧ filled = builder ∨ (∃ name, wrapped = some name) ∧
    filled = stage.size + (startOrigins id target).length
  inside : filled < opened.size

theorem opening {id : NodeId} {wrapped : Option (Option String)} {filled : BuilderId} {started opened : Stage}
    (whole : stage.Whole) (inside : ∀ builder, target = some builder → builder < stage.size)
    (start : stage.start target = (builder, started))
    (unwrap : (started.remember id builder).unwrap builder wrapped = (filled, opened)) :
    Opening stage id target wrapped builder filled opened := by
  have starts : Growth stage started target (startOrigins id target) ∧ builder < started.size ∧
      (target = some builder ∨ target = none ∧ builder = stage.size) := by
    cases target with
    | some target =>
      cases start
      exact ⟨.refl whole, inside _ rfl, Or.inl rfl⟩
    | none =>
      cases start
      exact ⟨growth_create whole _ _, Nat.lt_of_lt_of_eq (Nat.lt_succ_self _) Builders.size_create.symm,
        Or.inr ⟨rfl, rfl⟩⟩
  obtain ⟨grows, within, fresh⟩ := starts
  have remembers : Growth stage (started.remember id builder) target (startOrigins id target) := grows.remember within
  cases wrapped with
  | none =>
    cases unwrap
    exact ⟨by simpa [unwrapOrigins] using remembers, fresh, Or.inl ⟨rfl, rfl⟩, within⟩
  | some name =>
    cases unwrap
    have creates := growth_create remembers.whole {} (.item id)
    have links := @growth_modify _ builder creates.whole _ (Role.link_bag (.repeated name) started.size)
    have unwraps := creates.anywhere.trans links fun _ _ same => same
    refine ⟨remembers.trans unwraps ?_, fresh, Or.inr ⟨⟨name, rfl⟩, grows.size⟩, ?_⟩
    · rintro other small ⟨⟩
      rcases fresh with same | ⟨_, rfl⟩
      · exact same
      · exact absurd small (Nat.lt_irrefl _)
    · exact Nat.lt_of_lt_of_eq (Nat.lt_succ_self _) (Builders.size_modify.trans Builders.size_create).symm

theorem opened_new {id : NodeId} {wrapped : Option (Option String)} {filled : BuilderId} {started opened : Stage}
    (whole : stage.Whole) (start : stage.start none = (builder, started))
    (unwrap : (started.remember id builder).unwrap builder wrapped = (filled, opened)) :
    opened.builders.get filled = { bag := filled } ∧ opened.builders.rules filled = [] ∧
      (wrapped = none ∨ ∃ name, wrapped = some name ∧
        opened.builders.get builder = (Role.repeated name).link filled { bag := builder } ∧
        opened.builders.rules builder = []) := by
  cases start
  cases wrapped with
  | none =>
    cases unwrap
    exact ⟨Builders.get_create_new whole.tidy, Builders.rules_create_new whole.tidy, Or.inl rfl⟩
  | some name =>
    cases unwrap
    have tidy : stage.builders.create.2.Tidy := whole.tidy.create
    have size : stage.builders.create.2.size = stage.builders.size + 1 := Builders.size_create
    have inside : stage.builders.size < stage.builders.create.2.size := size ▸ Nat.lt_succ_self _
    have larger : stage.builders.size < stage.builders.create.2.create.2.size := by
      rw [Builders.size_create]
      exact Nat.lt_succ_of_lt inside
    have different : stage.builders.create.2.size ≠ stage.builders.size := Nat.ne_of_gt inside
    refine ⟨?_, ?_, Or.inr ⟨name, rfl, ?_, ?_⟩⟩
    · exact (Builders.get_modify_other different).trans (Builders.get_create_new tidy)
    · exact (Builders.rules_modify (Role.link_bag _ _)).trans (Builders.rules_create_new tidy)
    · refine (Builders.get_modify_same larger).trans ?_
      rw [Builders.get_create_old inside]
      exact congrArg _ (Builders.get_create_new whole.tidy)
    · refine (Builders.rules_modify (Role.link_bag _ _)).trans ?_
      exact (Builders.rules_create_old tidy inside).trans (Builders.rules_create_new whole.tidy)

theorem growth_write (whole : stage.Whole) (inside : builder < stage.size) {id : NodeId} {entry : Entry} {later : Stage}
    (written : stage.write builder entry = some later) : Growth stage later (some builder) (entry.origins id) := by
  cases entry with
  | mark mark =>
    cases written
    exact growth_modify whole mark.apply_bag
  | rules rules =>
    cases written
    exact growth_pushRules whole inside
  | plain role type =>
    cases written
    have created := growth_create whole { target := some (.builtin type) } (.plain id type)
    exact created.anywhere.trans (growth_modify created.whole (Role.link_bag _ _)) fun _ _ same => same
  | notice _ =>
    cases written
    exact .refl whole
  | ask _ _ | embed _ | append _ => cases written

theorem growth_append (whole : stage.Whole) (inside : builder < stage.size) {content : Expansion} :
    Growth stage (stage.append builder content) (some builder) [] := by
  have fields : Growth stage (stage.edit (·.pushFields builder content.fields)) (some builder) [] :=
    growth_modify whole fun _ => rfl
  have larger := Nat.lt_of_lt_of_le inside fields.le
  exact fields.trans (growth_pushRules fields.whole larger) fun _ _ same => same

/-- A built-in builder is added behind the others, and the one that gets the link keeps what it had. -/
theorem get_plain (inside : builder < stage.size) (role : Role) (type : Builtin) :
    (stage.edit fun builders => (builders.createBuiltin type).2.modify builder
      (role.link stage.size)).builders.get builder = role.link stage.size (stage.builders.get builder) := by
  have larger : builder < (stage.builders.createBuiltin type).2.size := by
    rw [Builders.createBuiltin, Builders.size_create]
    exact Nat.lt_succ_of_lt inside
  rw [edit, Builders.get_modify_same larger, Builders.createBuiltin, Builders.get_create_old inside]

theorem get_append_other {other : BuilderId} (different : other ≠ builder) {content : Expansion} :
    (stage.append builder content).builders.get other = stage.builders.get other := by
  rw [append, edit, Builders.get_pushRules, Builders.pushFields, Builders.get_modify_other different]

/-! What a builder gets after something else was done holds what it had before. -/

theorem Growth.get_link {later : Stage} {made : List Origin} (grows : Growth stage later none made)
    (inside : builder < stage.size) (role : Role) (other : BuilderId) :
    (later.edit (·.modify builder (role.link other))).builders.get builder =
      role.link other (stage.builders.get builder) := by
  rw [edit, Builders.get_modify_same (Nat.lt_of_lt_of_le inside grows.le),
    grows.get builder inside (Option.some_ne_none _).symm]

theorem Growth.get_append {later : Stage} {made : List Origin} (grows : Growth stage later none made)
    (inside : builder < stage.size) (content : Expansion) :
    (later.append builder content).builders.get builder =
      { stage.builders.get builder with fields := (stage.builders.get builder).fields ++ content.fields } := by
  rw [append, edit, Builders.get_pushRules, Builders.pushFields,
    Builders.get_modify_same (Nat.lt_of_lt_of_le inside grows.le),
    grows.get builder inside (Option.some_ne_none _).symm]

end Changes
end Stage

open Stage

namespace Run
variable {nodes : Nodes} {busy : List BuilderId} {task : Task} {stage later : Stage} {outcome : Expansion}
  {made : List Origin}

theorem keeps (run : Run nodes busy task stage outcome later made) {id : NodeId} {builder : BuilderId}
    (found : stage.memo id = some builder) : later.memo id = some builder := by
  have apart {stage : Stage} {other : NodeId} (found : stage.memo id = some builder) (new : stage.memo other = none) :
      id ≠ other := by
    rintro rfl
    rw [new] at found
    cases found
  induction run with
  | known | finished | cut | unresolved | empty => exact found
  | shared new plan run ih =>
    simp only [Stage.remember, Function.update_of_ne (apart found new)]
    exact ih found
  | opened new plan start unwrap run ih =>
    refine ih ?_
    rw [opened_memo start unwrap, Function.update_of_ne (apart found new)]
    exact found
  | written written => rw [write_memo written]; exact found
  | ask listed run ih | embed listed run ih | append listed run ih => exact ih found
  | expanded outside run ih | leaf isGroup listed run ih | group listed run ih => exact ih found
  | next run remaining ih rest | more run remaining ih rest => exact rest (ih found)

theorem lacks (run : Run nodes busy task stage outcome later made) {id : NodeId} (lacking : later.memo id = none) :
    stage.memo id = none := by
  cases found : stage.memo id with
  | none => rfl
  | some builder =>
    rw [run.keeps found] at lacking
    cases lacking

theorem answer {id : NodeId} {target : Option BuilderId}
    (run : Run nodes busy (.derive id target) stage outcome later made) :
    ∃ builder, outcome = { fields := [builder] } ∧ later.memo id = some builder := by
  cases run with
  | known found => exact ⟨_, rfl, found⟩
  | shared new plan run => exact ⟨_, rfl, Function.update_self _ _ _⟩
  | opened new plan start unwrap run =>
    exact ⟨_, rfl, run.keeps (by rw [opened_memo start unwrap, Function.update_self])⟩

theorem growth (run : Run nodes busy task stage outcome later made) (whole : stage.Whole)
    (inside : ∀ builder, task.target? = some builder → builder < stage.size) :
    Growth stage later task.target? made := by
  induction run with
  | known | finished | cut | unresolved | empty => exact .refl whole
  | shared new plan run ih =>
    have grows := ih whole nowhere
    obtain ⟨_, ⟨⟩, found⟩ := run.answer
    exact grows.anywhere.remember (grows.whole.range _ _ found)
  | opened new plan start unwrap run ih =>
    have opens := opening whole inside start unwrap
    have grows := ih opens.grows.whole (by rintro _ ⟨⟩; exact opens.inside)
    refine opens.grows.trans grows ?_
    rintro other small ⟨⟩
    rcases opens.fill with ⟨_, rfl⟩ | ⟨_, fresh⟩
    · rcases opens.start with same | ⟨_, fresh⟩
      · exact same
      · exact absurd (fresh ▸ small) (Nat.lt_irrefl _)
    · exact absurd small (Nat.not_lt.mpr (fresh ▸ Nat.le_add_right _ _))
  | written written => exact growth_write whole (inside _ rfl) written
  | ask listed run ih =>
    have grows := ih whole nowhere
    exact grows.changed (growth_modify grows.whole (Role.link_bag _ _))
  | embed listed run ih => exact ih whole inside
  | append listed run ih =>
    have grows := ih whole nowhere
    exact grows.changed (growth_append grows.whole (Nat.lt_of_lt_of_le (inside _ rfl) grows.le))
  | next run remaining ih rest =>
    have grows := ih whole inside
    have grown := rest grows.whole fun builder same => Nat.lt_of_lt_of_le (inside builder same) grows.le
    exact grows.trans grown fun _ _ same => same
  | expanded outside run ih | leaf isGroup listed run ih | group listed run ih => exact ih whole nowhere
  | more run remaining ih rest =>
    have grows := ih whole nowhere
    exact grows.trans (rest grows.whole nowhere) fun _ _ same => same

end Run
end SchemaClasses
