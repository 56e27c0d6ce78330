import SchemaClasses.Proofs.Derivation.Sound
import SchemaClasses.Proofs.Schema.Notices

/-! What is reported while builders are derived. Plans report what they cannot follow, and a derivation reports
nothing but what its plans do. -/

namespace SchemaClasses

namespace Nodes
variable {nodes : Nodes} {id : NodeId} {notice : Notice}

private theorem declared_notice {name : Option String} {type : Option TypeRef}
    (listed : .notice notice ∈ type.toList.map (TypeRef.declared name)) :
    notice.source = .derivation := by
  rcases type with _ | (_ | _ | _ | _) <;> simp_all [TypeRef.declared, Notice.source]

private theorem extended_notice {base : Option TypeRef} (listed : .notice notice ∈ base.toList.map TypeRef.extended) :
    notice.source = .derivation := by
  rcases base with _ | (_ | _ | _ | _) <;> simp_all [TypeRef.extended, Notice.source]

private theorem item_notice {node : Node} {itemType : Option TypeRef}
    (listed : .notice notice ∈ node.itemEntries itemType) :
    notice.source = .derivation := by
  cases itemType with
  | some type => cases type <;> simp_all [Node.itemEntries, Notice.source]
  | none => cases child : node.child? .simpleType <;> simp [Node.itemEntries, child] at listed

theorem source_of_planned (listed : .notice notice ∈ nodes.planned id) : notice.source = .derivation := by
  have listed : .notice notice ∈ nodes.entries id := by
    rcases mem_planned listed with listed | ⟨_, other⟩ | ⟨_, _, other, _⟩
    · exact listed
    · cases other
    · cases other
  unfold entries at listed
  cases construct : (nodes.get id).construct <;>
    simp only [construct, List.cons_append, List.mem_cons, List.mem_append, List.mem_map, reduceCtorEq,
      Node.modelEntries, attributeEntries, and_false, exists_false, false_or, or_false, List.not_mem_nil] at listed
  case element | attr => exact declared_notice (List.mem_map.mpr listed)
  case simpleType => split at listed <;> simp at listed
  case restriction | extension => exact extended_notice (List.mem_map.mpr listed)
  case list => exact item_notice listed

theorem source_of_plan {notices : BuilderId → List Notice} {wrapped : Option (Option String)} {entries : List Entry}
    (plan : nodes.plan id = .build notices wrapped entries) (builder : BuilderId) :
    ∀ notice ∈ notices builder, notice.source = .derivation := by
  have derived : ∀ notice ∈ nodes.derivationNotices id builder, notice.source = .derivation :=
    List.forall_mem_singleton.mpr rfl
  unfold Nodes.plan at plan
  split at plan
  · split at plan
    · cases plan
      exact List.forall_mem_singleton.mpr rfl
    · split at plan
      · cases plan
        exact List.forall_mem_nil _
      · cases plan
    · cases plan
      exact derived
  · cases plan
  · cases plan
    exact derived

theorem source_of_parts (listed : .notice notice ∈ nodes.parts id) : notice.source = .derivation := by
  have referred {ref : NodeRef} {unresolved : String → Notice} (own : ∀ name, (unresolved name).source = .derivation)
      (same : .notice notice = referredPart ref unresolved) : notice.source = .derivation := by
    cases ref with
    | resolved => cases same
    | named name =>
      cases same
      exact own name
  unfold parts at listed
  cases construct : (nodes.get id).construct with
  | group _ ref _ =>
    cases ref with
    | none => simp [construct] at listed
    | some ref =>
      simp only [construct, List.mem_singleton] at listed
      exact referred (fun _ => rfl) listed
  | attrGroup _ ref =>
    cases ref with
    | none => simp [construct] at listed
    | some ref =>
      simp only [construct, List.mem_singleton] at listed
      exact referred (fun _ => rfl) listed
  | sequence _ | choice _ | all _ =>
    simp only [construct, List.mem_map] at listed
    obtain ⟨_, _, particle⟩ := listed
    unfold Nodes.particle at particle
    split at particle <;> cases particle
  | _ => simp [construct] at listed

end Nodes

namespace Derive
variable {α β : Type}

/-- Steps that report on the derivation, and on nothing else. -/
def Speaks (steps : Derive α) : Prop :=
  ∀ before result after, steps.Gives before result after →
    ∃ said, after.notices.toList = before.notices.toList ++ said ∧ ∀ notice ∈ said, notice.source = .derivation

namespace Speaks

theorem silent {steps : Derive α}
    (still : ∀ {before result after}, steps.Gives before result after → after.notices = before.notices) :
    Speaks steps :=
  fun _ _ _ gives => ⟨[], by rw [still gives, List.append_nil], List.forall_mem_nil _⟩

theorem bind {first : Derive α} {rest : α → Derive β} (one : Speaks first) (other : ∀ value, Speaks (rest value)) :
    Speaks (first >>= rest) := by
  intro before result after gives
  obtain ⟨value, middle, begun, remaining⟩ := gives.bind
  obtain ⟨said, notices, sources⟩ := one _ _ _ begun
  obtain ⟨more, notices', sources'⟩ := other value _ _ _ remaining
  refine ⟨said ++ more, by rw [notices', notices, List.append_assoc], fun notice listed => ?_⟩
  exact (List.mem_append.mp listed).elim (sources notice) (sources' notice)

theorem pure (value : α) : Speaks (Pure.pure value : Derive α) := by
  apply silent
  intro before result after gives
  rw [gives.pure.2]

theorem map {first : Derive α} (one : Speaks first) (f : α → β) : Speaks (f <$> first) := by
  rw [map_eq_pure_bind]
  exact one.bind fun _ => pure _

theorem edit (change : Builders → Builders) : Speaks (Derive.edit change) := by
  apply silent
  intro before result after gives
  rw [gives.edit]

theorem make (creation : Builders → BuilderId × Builders) : Speaks (Derive.make creation) := by
  apply silent
  intro before result after gives
  rw [gives.make.2]

theorem remember (id : NodeId) (builder : BuilderId) : Speaks (Derive.remember id builder) := by
  apply silent
  intro before result after gives
  rw [gives.remember]
  rfl

theorem report {notice : Notice} (source : notice.source = .derivation) : Speaks (Derive.report notice) := by
  intro before result after gives
  rw [gives.report]
  exact ⟨[notice], Array.toList_push, List.forall_mem_singleton.mpr source⟩

theorem forM {items : List α} {step : α → Derive Unit} (each : ∀ item ∈ items, Speaks (step item)) :
    Speaks (items.forM step) := by
  induction items with
  | nil => exact pure ()
  | cons item items ih =>
    obtain ⟨first, others⟩ := List.forall_mem_cons.mp each
    exact first.bind fun _ => ih others

theorem mapM {items : List α} {step : α → Derive β} (each : ∀ item ∈ items, Speaks (step item)) :
    Speaks (items.mapM step) := by
  induction items with
  | nil => exact pure []
  | cons item items ih =>
    obtain ⟨first, others⟩ := List.forall_mem_cons.mp each
    rw [List.mapM_cons]
    exact first.bind fun _ => (ih others).bind fun _ => pure _

end Speaks

end Derive

/-- What a recursion reports, it reports on the derivation. -/
structure Recursion.Speaks (recursion : Recursion) : Prop where
  builder : ∀ id target, (recursion.builder id target).Speaks
  expansion : ∀ path id, (recursion.expansion path id).Speaks

namespace Derive
variable {nodes : Nodes} {recursion : Recursion} (speaks : recursion.Speaks)
include speaks

theorem perform_speaks {builder : BuilderId} {entry : Entry}
    (reports : ∀ notice, entry = .notice notice → notice.source = .derivation) :
    (perform recursion builder entry).Speaks := by
  cases entry with
  | mark mark => exact Speaks.edit (·.modify builder mark.apply)
  | rules rules => exact Speaks.edit (·.pushRules builder rules)
  | plain => exact (Speaks.make _).bind fun _ => .edit _
  | ask => exact (speaks.builder _ _).bind fun _ => .edit _
  | embed => exact (speaks.builder _ _).map _
  | append => exact (speaks.expansion _ _).bind fun _ => (Speaks.edit _).bind fun _ => .edit _
  | notice notice => exact .report (reports notice rfl)

theorem follow_speaks (id : NodeId) (target : Option BuilderId) :
    (follow recursion id target (nodes.plan id)).Speaks := by
  cases plan : nodes.plan id with
  | share referenced => exact (speaks.builder _ _).bind fun _ => (Speaks.remember _ _).bind fun _ => .pure _
  | build notices wrapped entries =>
    have make : (makeUnless target).Speaks := by
      cases target with
      | some => exact .pure _
      | none => exact Speaks.make Builders.create
    have unwrap (builder : BuilderId) : (unwrap builder wrapped).Speaks := by
      cases wrapped with
      | none => exact .pure _
      | some => exact (Speaks.make _).bind fun _ => (Speaks.edit _).bind fun _ => .pure _
    have reports (builder : BuilderId) : ((notices builder).forM report).Speaks :=
      .forM fun notice listed => .report (Nodes.source_of_plan plan builder notice listed)
    have prepare : (prepare id target notices wrapped).Speaks :=
      make.bind fun _ => (Speaks.remember _ _).bind fun _ => (reports _).bind fun _ => (unwrap _).bind fun _ => .pure _
    refine prepare.bind fun opened => (Speaks.forM fun entry listed => ?_).bind fun _ => .pure _
    refine perform_speaks speaks fun notice same => ?_
    have planned : .notice notice ∈ nodes.planned id := by
      rw [Nodes.planned_of_plan plan, ← same]
      exact listed
    exact Nodes.source_of_planned planned

theorem derive_speaks (id : NodeId) (target : Option BuilderId) : (derive nodes recursion id target).Speaks := by
  rw [derive_eq]
  refine Speaks.bind (.silent fun gives => by rw [gives.builder?.2]) fun known => ?_
  cases known with
  | some => exact .pure _
  | none => exact follow_speaks speaks id target

theorem part_speaks {path : List NodeId} {part : Part}
    (reports : ∀ notice, part = .notice notice → notice.source = .derivation) :
    (Derive.part recursion path part).Speaks := by
  cases part with
  | leaf => exact (speaks.builder _ _).bind fun _ => .pure _
  | group => exact speaks.expansion _ _
  | notice notice => exact (Speaks.report (reports notice rfl)).bind fun _ => .pure _

theorem expandOnce_speaks (path : List NodeId) (id : NodeId) : (expandOnce nodes recursion path id).Speaks := by
  unfold expandOnce
  split
  · exact (Speaks.report rfl).bind fun _ => .pure _
  · rw [expand_eq]
    refine Speaks.bind ?_ fun content => ?_
    · refine Speaks.map (.mapM fun part listed => part_speaks speaks fun notice same => ?_) _
      exact Nodes.source_of_parts (same ▸ listed)
    · unfold withOptions
      split
      · refine Speaks.bind (.silent fun gives => ?_) fun _ => .pure _
        cases gives
        rfl
      · exact .pure _

end Derive

theorem Recursion.upTo_speaks {nodes : Nodes} (depth : Nat) : (upTo nodes depth).Speaks := by
  induction depth with
  | zero => exact ⟨fun _ _ _ _ _ gives => (nomatch gives), fun _ _ _ _ _ gives => (nomatch gives)⟩
  | succ depth ih => exact ⟨Derive.derive_speaks ih, Derive.expandOnce_speaks ih⟩

end SchemaClasses
