import SchemaClasses.Proofs.Builder.Range
import SchemaClasses.Proofs.Derivation.Members

/-! Links lead to builders: a builder is linked to others only when they are there. -/

namespace SchemaClasses

namespace Builder.LinksTo
variable {sort : BuilderId → Prop} {builder : Builder}

theorem mark (links : builder.LinksTo sort) (mark : Mark) : (mark.apply builder).LinksTo sort := by
  cases mark with
  | list => exact ⟨links.base, by simp [Mark.apply], links.fields⟩
  | _ => exact ⟨links.base, links.item, links.fields⟩

theorem link (links : builder.LinksTo sort) (role : Role) {other : BuilderId} (holds : sort other) :
    (role.link other builder).LinksTo sort := by
  have single : ∀ id, some other = some id → sort id := fun id same => Option.some.inj same ▸ holds
  cases role with
  | base => exact ⟨single, links.item, links.fields⟩
  | item | repeated => exact ⟨links.base, single, links.fields⟩
  | field => exact ⟨links.base, links.item, List.forall_mem_append.mpr ⟨links.fields, by simpa using holds⟩⟩

end Builder.LinksTo

namespace Stage
variable {stage : Stage} {target : Option BuilderId} {builder filled : BuilderId} {started opened : Stage}

theorem inRange_opened {id : NodeId} {wrapped : Option (Option String)} (range : stage.builders.InRange)
    (start : stage.start target = (builder, started))
    (unwrap : (started.remember id builder).unwrap builder wrapped = (filled, opened)) :
    opened.builders.InRange := by
  have starts : started.builders.InRange := by
    cases target with
    | some target =>
      cases start
      exact range
    | none =>
      cases start
      exact range.create
  cases wrapped with
  | none =>
    cases unwrap
    exact starts
  | some name =>
    cases unwrap
    refine Builders.InRange.modify starts.create fun _ links => links.link _ ?_
    exact Nat.lt_of_lt_of_eq (Nat.lt_succ_self _) Builders.size_create.symm

theorem inRange_write {entry : Entry} {later : Stage} (range : stage.builders.InRange)
    (written : stage.write builder entry = some later) : later.builders.InRange := by
  cases entry with
  | mark mark =>
    cases written
    exact range.modify fun _ links => links.mark mark
  | rules rules =>
    cases written
    exact range
  | plain role type =>
    cases written
    refine Builders.InRange.modify range.create fun _ links => links.link role ?_
    exact Nat.lt_of_lt_of_eq (Nat.lt_succ_self _) Builders.size_create.symm
  | notice _ =>
    cases written
    exact range
  | ask | embed | append => cases written

end Stage

namespace Run
variable {nodes : Nodes} {busy : List BuilderId} {task : Task} {stage later : Stage} {outcome : Expansion}
  {made : List Origin}

theorem outcome_lt (run : Run nodes busy task stage outcome later made) (whole : later.Whole) :
    ∀ builder ∈ outcome.fields, builder < later.size := by
  intro builder member
  have known : some builder ∈ outcome.fields.map some := List.mem_map_of_mem member
  rw [run.fields] at known
  obtain ⟨id, _, found⟩ := List.mem_map.mp known
  exact whole.range id builder found

/-- No link leads out of the store when a task is done, if none did before. -/
theorem inRange (run : Run nodes busy task stage outcome later made) (whole : stage.Whole)
    (inside : ∀ builder, task.target? = some builder → builder < stage.size) (range : stage.builders.InRange) :
    later.builders.InRange := by
  induction run with
  | known | finished | cut | unresolved | empty => exact range
  | shared new plan run ih => exact ih whole Stage.nowhere range
  | opened new plan start unwrap run ih =>
    have opens := Stage.opening whole inside start unwrap
    refine ih opens.grows.whole ?_ (Stage.inRange_opened range start unwrap)
    rintro _ ⟨⟩
    exact opens.inside
  | written written => exact Stage.inRange_write range written
  | ask listed run ih =>
    have within := run.outcome_lt (run.growth whole Stage.nowhere).whole
    refine (ih whole Stage.nowhere range).modify fun _ links => links.link _ ?_
    exact within _ List.mem_cons_self
  | embed listed run ih => exact ih whole inside range
  | @append _ _ builder _ _ content later _ listed run ih =>
    have within := run.outcome_lt (run.growth whole Stage.nowhere).whole
    have fields : (later.builders.pushFields builder content.fields).InRange :=
      (ih whole Stage.nowhere range).modify fun _ links => links.push within
    exact fields
  | next run remaining ih rest =>
    have grows := run.growth whole inside
    exact rest grows.whole (fun builder same => Nat.lt_of_lt_of_le (inside builder same) grows.le)
      (ih whole inside range)
  | expanded outside run ih | leaf isGroup listed run ih | group listed run ih => exact ih whole Stage.nowhere range
  | more run remaining ih rest =>
    have grows := run.growth whole Stage.nowhere
    exact rest grows.whole Stage.nowhere (ih whole Stage.nowhere range)

end Run
end SchemaClasses
