import SchemaClasses.Proofs.Derivation.Run

/-! A run is determined by its task and by what is there when it begins. So whatever a derivation begins with
goes the same way on its own. -/

namespace SchemaClasses

namespace Run
variable {nodes : Nodes} {busy other : List BuilderId} {task : Task} {stage later last : Stage}
  {outcome content : Expansion}
  {made more : List Origin}

/-- A task has one outcome, whatever else is being filled. -/
theorem deterministic (run : Run nodes busy task stage outcome later made)
    (again : Run nodes other task stage content last more) :
    content = outcome ∧ last = later := by
  induction run generalizing other content last more with
  | known found =>
    cases again with
    | known same =>
      cases found.symm.trans same
      exact ⟨rfl, rfl⟩
    | shared new | opened new => cases found.symm.trans new
  | shared new plan run ih =>
    cases again with
    | known found => cases found.symm.trans new
    | shared _ same again =>
      cases plan.symm.trans same
      obtain ⟨⟨⟩, rfl⟩ := ih again
      exact ⟨rfl, rfl⟩
    | opened _ same => cases plan.symm.trans same
  | opened new plan start unwrap run ih =>
    cases again with
    | known found => cases found.symm.trans new
    | shared _ same => cases plan.symm.trans same
    | opened _ same starts unwraps again =>
      cases plan.symm.trans same
      cases start.symm.trans starts
      cases unwrap.symm.trans unwraps
      obtain ⟨_, rfl⟩ := ih again
      exact ⟨rfl, rfl⟩
  | written written =>
    cases again with
    | written same =>
      cases written.symm.trans same
      exact ⟨rfl, rfl⟩
    | ask | embed | append => cases written
  | ask listed run ih =>
    cases again with
    | written written => cases written
    | ask _ again =>
      obtain ⟨⟨⟩, rfl⟩ := ih again
      exact ⟨rfl, rfl⟩
  | embed listed run ih =>
    cases again with
    | written written => cases written
    | embed _ again =>
      obtain ⟨_, rfl⟩ := ih again
      exact ⟨rfl, rfl⟩
  | append listed run ih =>
    cases again with
    | written written => cases written
    | append _ again =>
      obtain ⟨rfl, rfl⟩ := ih again
      exact ⟨rfl, rfl⟩
  | finished =>
    cases again
    exact ⟨rfl, rfl⟩
  | next run remaining ih rest =>
    cases again with
    | next first others =>
      obtain ⟨_, rfl⟩ := ih first
      exact rest others
  | cut inside =>
    cases again with
    | cut => exact ⟨rfl, rfl⟩
    | expanded outside => exact absurd inside outside
  | expanded outside run ih =>
    cases again with
    | cut inside => exact absurd inside outside
    | expanded _ again =>
      obtain ⟨rfl, rfl⟩ := ih again
      exact ⟨rfl, rfl⟩
  | leaf isGroup listed run ih =>
    cases again with
    | leaf _ _ again => exact ih again
  | group listed run ih =>
    cases again with
    | group _ again => exact ih again
  | unresolved | empty =>
    cases again
    exact ⟨rfl, rfl⟩
  | more run remaining ih rest =>
    cases again with
    | more first others =>
      obtain ⟨rfl, rfl⟩ := ih first
      obtain ⟨rfl, rfl⟩ := rest others
      exact ⟨rfl, rfl⟩

theorem expand_parts {path : List NodeId} {id : NodeId}
    (run : Run nodes busy (.expand path id) stage outcome later made) (outside : id ∉ path) :
    ∃ content, Run nodes busy (.parts (id :: path) (nodes.parts id)) stage content later made ∧
      outcome = nodes.optioned id later content := by
  cases run with
  | cut inside => exact absurd inside outside
  | expanded _ run => exact ⟨_, run, rfl⟩

theorem parts_append {path : List NodeId} {front back : List Part}
    (run : Run nodes busy (.parts path (front ++ back)) stage outcome later made) :
    ∃ first middle opened rest closed, Run nodes busy (.parts path front) stage first middle opened ∧
      Run nodes busy (.parts path back) middle rest later closed := by
  induction front generalizing stage outcome made with
  | nil => exact ⟨_, _, _, _, _, .empty, run⟩
  | cons part front ih =>
    cases run with
    | more run remaining =>
      obtain ⟨_, middle, _, rest, closed, opens, closes⟩ := ih remaining
      exact ⟨_, middle, _, rest, closed, .more run opens, closes⟩

end Run
end SchemaClasses
