import SchemaClasses.Proofs.Derivation.Growth
import SchemaClasses.Proofs.Derivation.Links

/-! A node that fills the builder of its parent gets it while the entries of the parent are written, and
never otherwise, where types with a name stand on top. So it is always there to be filled. -/

namespace SchemaClasses

/-- Whatever fills the builder of its parent does so after the parent. -/
def Stage.Folded (nodes : Nodes) (stage : Stage) : Prop :=
  ∀ outer inner, nodes.Embeds outer inner → stage.memo outer = none → stage.memo inner = none

def Entry.embedded? : Entry → Option NodeId
  | embed inner => some inner
  | _ => none

def Task.embedded : Task → List NodeId
  | .derive id (some _) => [id]
  | .entry _ _ single => single.embedded?.toList
  | .entries _ _ several => several.filterMap Entry.embedded?
  | _ => []

/-- Only what its parent embeds is derived into a builder that is there. -/
def Task.Proper (nodes : Nodes) (stage : Stage) : Task → Prop
  | .derive id none => ¬nodes.Embedded id
  | .derive id (some _) => ∃ outer, nodes.Embeds outer id ∧ stage.memo outer ≠ none
  | .entry id _ _ => stage.memo id ≠ none
  | .entries id _ several => stage.memo id ≠ none ∧ ∀ entry ∈ several, entry ∈ nodes.planned id
  | .expand .. | .part .. | .parts .. => True

theorem Task.Proper.target {nodes : Nodes} (formed : nodes.Formed) {stage : Stage} {id outer : NodeId}
    {target : Option BuilderId} (proper : (Task.derive id target).Proper nodes stage) (embeds : nodes.Embeds outer id) :
    (∃ builder, target = some builder) ∧ stage.memo outer ≠ none := by
  cases target with
  | none => exact absurd ⟨outer, embeds⟩ proper
  | some builder =>
    obtain ⟨parent, own, known⟩ := proper
    exact ⟨⟨builder, rfl⟩, formed.embeds_unique own embeds ▸ known⟩

theorem Stage.Folded.opened {nodes : Nodes} (formed : nodes.Formed) {stage opened : Stage} (folded : stage.Folded nodes)
    {id : NodeId} {target : Option BuilderId} {builder : BuilderId} (new : stage.memo id = none)
    (proper : (Task.derive id target).Proper nodes stage)
    (memo : opened.memo = Function.update stage.memo id (some builder)) : opened.Folded nodes := by
  intro outer inner embeds lacking
  have outside : outer ≠ id := by
    rintro rfl
    rw [memo, Function.update_self] at lacking
    cases lacking
  rw [memo, Function.update_of_ne outside] at lacking
  have within : inner ≠ id := by
    rintro rfl
    exact (proper.target formed embeds).2 lacking
  rw [memo, Function.update_of_ne within]
  exact folded outer inner embeds lacking

/-- A node inside of another still lacks a builder when a further one is opened, and is not among what that one
embeds. -/
private theorem Stage.opened_lacks {nodes : Nodes} (formed : nodes.Formed) {stage opened : Stage}
    {id outer inner : NodeId} {target : Option BuilderId} {builder filled : BuilderId} {entries : List Entry}
    (new : stage.memo id = none) (proper : (Task.derive id target).Proper nodes stage)
    (memo : opened.memo = Function.update stage.memo id (some builder)) (planned : nodes.planned id = entries)
    (embeds : nodes.Embeds outer inner) (known : stage.memo outer ≠ none) (lacking : stage.memo inner = none)
    (apart : inner ∉ (Task.derive id target).embedded) :
    opened.memo outer ≠ none ∧ opened.memo inner = none ∧ inner ∉ (Task.entries id filled entries).embedded := by
  have within : inner ≠ id := by
    rintro rfl
    obtain ⟨⟨builder, rfl⟩, _⟩ := proper.target formed embeds
    exact apart (by simp [Task.embedded])
  have outside : outer ≠ id := by
    rintro rfl
    exact known new
  rw [memo, Function.update_of_ne within, Function.update_of_ne outside]
  refine ⟨known, lacking, fun member => outside ?_⟩
  obtain ⟨entry, listed, embedded⟩ := List.mem_filterMap.mp member
  have own : nodes.Embeds id inner := by
    cases entry <;> cases embedded
    rw [Nodes.Embeds, planned]
    exact listed
  exact formed.embeds_unique embeds own

namespace Run
variable {nodes : Nodes} {busy : List BuilderId} {task : Task} {stage later : Stage} {outcome : Expansion}
  {made : List Origin}

private theorem folds (formed : nodes.Formed) (top : nodes.TypesOnTop)
    (run : Run nodes busy task stage outcome later made) (proper : task.Proper nodes stage)
    (folded : stage.Folded nodes) :
    later.Folded nodes ∧ ∀ outer inner, nodes.Embeds outer inner → stage.memo outer ≠ none → stage.memo inner = none →
      inner ∉ task.embedded → later.memo inner = none := by
  induction run with
  | known | finished | cut | unresolved | empty => exact ⟨folded, fun _ _ _ _ lacking _ => lacking⟩
  | @shared busy id target stage referenced builder later made new plan run ih =>
    obtain ⟨folded, fresh⟩ := ih (formed.share_apart plan) folded
    have different {outer inner : NodeId} (embeds : nodes.Embeds outer inner) : inner ≠ id := by
      rintro rfl
      exact formed.share_not_embedded plan ⟨outer, embeds⟩
    constructor
    · intro outer inner embeds lacking
      simp only [Stage.remember, Function.update_of_ne (different embeds)]
      refine folded outer inner embeds ?_
      by_cases same : outer = id
      · simp [Stage.remember, same] at lacking
      · simpa [Stage.remember, same] using lacking
    · intro outer inner embeds known lacking _
      simp only [Stage.remember, Function.update_of_ne (different embeds)]
      exact fresh outer inner embeds known lacking (by simp [Task.embedded])
  | @opened busy id target stage notices wrapped entries builder started filled opened later made new plan
    start unwrap run ih =>
    have memo := Stage.opened_memo start unwrap
    have planned := Nodes.planned_of_plan plan
    have self : opened.memo id = some builder := by rw [memo, Function.update_self]
    have opens := folded.opened formed new proper memo
    obtain ⟨folded, fresh⟩ :=
      ih ⟨by rw [self]; exact Option.some_ne_none _, by rw [planned]; exact fun _ member => member⟩ opens
    refine ⟨folded, fun outer inner embeds known lacking apart => ?_⟩
    obtain ⟨known, lacking, apart⟩ := Stage.opened_lacks formed new proper memo planned embeds known lacking apart
    exact fresh outer inner embeds known lacking apart
  | written written =>
    rw [Stage.Folded, Stage.write_memo written]
    exact ⟨folded, fun _ _ _ _ lacking _ => lacking⟩
  | ask listed run ih =>
    obtain ⟨folded, fresh⟩ := ih (formed.ask_apart top listed) folded
    exact ⟨folded, fun outer inner embeds known lacking _ => fresh outer inner embeds known lacking
      (by simp [Task.embedded])⟩
  | embed listed run ih => exact ih ⟨_, listed, proper⟩ folded
  | append listed run ih =>
    obtain ⟨folded, fresh⟩ := ih trivial folded
    exact ⟨folded, fun outer inner embeds known lacking _ => fresh outer inner embeds known lacking
      (by simp [Task.embedded])⟩
  | @next busy id builder entry entries stage middle later first rest run remaining ih others =>
    obtain ⟨folded, fresh⟩ := ih proper.1 folded
    have kept {id : NodeId} (known : stage.memo id ≠ none) : middle.memo id ≠ none :=
      fun lacking => known (run.lacks lacking)
    obtain ⟨folded, later⟩ :=
      others ⟨kept proper.1, fun entry member => proper.2 entry (List.mem_cons_of_mem _ member)⟩ folded
    refine ⟨folded, fun outer inner embeds known lacking apart => ?_⟩
    have first : inner ∉ entry.embedded?.toList := fun member =>
      apart (List.mem_filterMap.mpr ⟨entry, List.mem_cons_self, Option.mem_toList.mp member⟩)
    have rest : inner ∉ entries.filterMap Entry.embedded? := fun member => by
      obtain ⟨other, member, embedded⟩ := List.mem_filterMap.mp member
      exact apart (List.mem_filterMap.mpr ⟨other, List.mem_cons_of_mem _ member, embedded⟩)
    exact later outer inner embeds (kept known) (fresh outer inner embeds known lacking first) rest
  | expanded outside run ih | group listed run ih => exact ih trivial folded
  | leaf isGroup listed run ih => exact ih (formed.leaf_apart isGroup listed) folded
  | more run remaining ih others =>
    obtain ⟨folded, fresh⟩ := ih trivial folded
    obtain ⟨folded, later⟩ := others trivial folded
    refine ⟨folded, fun outer inner embeds known lacking _ => ?_⟩
    exact later outer inner embeds (fun lacking => known (run.lacks lacking))
      (fresh outer inner embeds known lacking (by simp [Task.embedded])) (by simp [Task.embedded])

theorem folded (formed : nodes.Formed) (top : nodes.TypesOnTop) (run : Run nodes busy task stage outcome later made)
    (proper : task.Proper nodes stage) (folded : stage.Folded nodes) : later.Folded nodes :=
  (run.folds formed top proper folded).1

/-- Once its parent has a builder, a node is left alone by all tasks but those that embed it. -/
theorem lacks_embedded (formed : nodes.Formed) (top : nodes.TypesOnTop)
    (run : Run nodes busy task stage outcome later made) (proper : task.Proper nodes stage)
    (folded : stage.Folded nodes) {outer inner : NodeId} (embeds : nodes.Embeds outer inner)
    (known : stage.memo outer ≠ none) (lacking : stage.memo inner = none) (apart : inner ∉ task.embedded) :
    later.memo inner = none :=
  (run.folds formed top proper folded).2 outer inner embeds known lacking apart

end Run
end SchemaClasses
