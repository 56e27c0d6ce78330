import Mathlib.Data.List.Perm.Basic
import SchemaClasses.Proofs.Schema.Resolution
import SchemaClasses.Proofs.Schema.Slots

/-! What is reported while a schema is loaded. Reading reports what it passes over, and resolution reports the
names that mean nothing. Just these names are what the schema has as unresolved afterwards. -/

namespace SchemaClasses

/-- The part of the work that reports a notice. -/
inductive Notice.Source where
  | reading
  | resolution
  | derivation
  | rendering
  | building
  deriving DecidableEq, Repr

namespace Notice

def source : Notice → Source
  | schemaParsed _ | skippedSchemaChild _ | skippedParticle _ | truncatedFacet .. | ignoredFacet .. => .reading
  | duplicateDeclaration .. | unresolvedType _ | unresolvedReference .. | referencesResolved _
  | schemaUnresolved _ => .resolution
  | derivation .. | unresolvedElement _ | unresolvedDeclarationType .. | unresolvedBase _ | unresolvedItem _
  | circularGroup _ | unresolvedGroup _ | unresolvedAttributeGroup _ => .derivation
  | renderingBuilders _ | unnamedField .. | omittedRule .. => .rendering
  | graphBuilt _ | instanceRendered .. => .building

/-- The warnings that say one of some sentences. -/
def warnings (sentences : List String) (notices : List Notice) : List Notice :=
  notices.filter fun notice => notice.level = .warn && notice.message ∈ sentences

/-- What is said of a name that means nothing. -/
def nameSentences : List String := ["type reference matches no declaration", "reference matches no declaration"]

/-- What is said of a schema with such names. -/
def summarySentences : List String := ["schema has unresolved references"]

/-- What is said of a rule that no check is compiled from. -/
def omissionSentences : List String := ["unsupported validation omitted"]

/-- The warnings among these sentences that a part of the work says. -/
def Source.sentences : Source → List String
  | resolution => nameSentences ++ summarySentences
  | rendering => omissionSentences
  | reading | derivation | building => []

variable {sentences : List String} {notices : List Notice} {notice : Notice}

theorem warnings_append (notices more : List Notice) :
    warnings sentences (notices ++ more) = warnings sentences notices ++ warnings sentences more :=
  List.filter_append notices more

theorem source_of_sentence {source : Source} (said : notice.message ∈ source.sentences) : notice.source = source := by
  cases source with
  | reading | derivation | building => cases said
  | resolution | rendering =>
    cases notice <;> first | rfl | simp [Source.sentences, nameSentences, summarySentences,
      omissionSentences, message] at said

/-- Sentences of one part of the work are not said by another. -/
theorem warnings_of_source {source : Source} (theirs : sentences ⊆ source.sentences)
    (others : ∀ notice ∈ notices, notice.source ≠ source) : warnings sentences notices = [] := by
  refine List.filter_eq_nil_iff.mpr fun notice listed warned => ?_
  obtain ⟨_, said⟩ := (Bool.and_eq_true _ _).mp warned
  exact others notice listed (source_of_sentence (theirs (of_decide_eq_true said)))

end Notice

namespace Reading

theorem source_of_stepAmong {kinds : List Kind} {other : String → Notice}
    (others : ∀ tag, (other tag).source = .reading) {tree : Tree} {notice : Notice}
    (skipped : .skip notice ∈ tree.children.filterMap (stepAmong kinds other)) : notice.source = .reading := by
  obtain ⟨child, _, same⟩ := List.mem_filterMap.mp skipped
  unfold stepAmong at same
  split at same
  · cases same
  · split at same
    · cases same
    · cases same
      exact others _

theorem source_of_steps {parent : Option Kind} {kind : Kind} {tree : Tree} {notice : Notice}
    (skipped : .skip notice ∈ steps parent kind tree) :
    notice.source = .reading := by
  unfold steps at skipped
  split at skipped
  case h_1 | h_2 | h_3 | h_4 => exact source_of_stepAmong (fun _ => rfl) skipped
  case h_5 =>
    obtain ⟨slot, _, listed⟩ := List.mem_flatMap.mp skipped
    cases slot <;> simp [Slot.steps] at listed

theorem source_of_withFacets {tree : Tree} {parent : Option Kind} {construct : Construct} :
    ∀ notice ∈ (withFacets tree parent construct).2, notice.source = .reading := by
  have numeric (facet : NumericFacet) : ∀ notice ∈ (numericFacet tree facet).2, notice.source = .reading := by
    unfold numericFacet
    split
    · simp
    · simp
    · split
      · simp
      · split <;> simp [Notice.source]
  unfold withFacets
  split
  · split
    · simp
    · intro notice listed
      simp only [facets, List.flatMap_map, List.mem_flatMap] at listed
      obtain ⟨facet, _, listed⟩ := listed
      exact numeric facet notice listed
  · simp

section Speaks
variable {α β : Type}

/-- Steps that add to the notices what they come upon in the document. -/
def Speaks (steps : M α) : Prop :=
  ∀ before, ∃ said, (steps.run before).2.notices = before.notices ++ said ∧ ∀ notice ∈ said, notice.source = .reading

namespace Speaks

theorem silent {steps : M α} (still : ∀ before, (steps.run before).2.notices = before.notices) : Speaks steps :=
  fun before => ⟨[], by rw [still, List.append_nil], by simp⟩

theorem bind {first : M α} {rest : α → M β} (one : Speaks first) (other : ∀ value, Speaks (rest value)) :
    Speaks (first >>= rest) := by
  intro before
  obtain ⟨said, notices, sources⟩ := one before
  rw [run_bind]
  rcases outcome : first.run before with ⟨error | value, middle⟩
  · rw [outcome] at notices
    exact ⟨said, notices, sources⟩
  · rw [outcome] at notices
    obtain ⟨more, notices', sources'⟩ := other value middle
    refine ⟨said ++ more, by rw [notices', notices, List.append_assoc], fun notice listed => ?_⟩
    exact (List.mem_append.mp listed).elim (sources notice) (sources' notice)

theorem pure (value : α) : Speaks (Pure.pure value : M α) :=
  silent fun _ => rfl

theorem lift (value : Except Error α) : Speaks (liftM value : M α) :=
  silent fun before => by rw [run_lift]

theorem report {notices : List Notice} (sources : ∀ notice ∈ notices, notice.source = .reading) :
    Speaks (Reading.report notices) :=
  fun _ => ⟨notices, rfl, sources⟩

theorem leave (id : NodeId) (construct : Construct) (children : List Child) :
    Speaks (Reading.leave id construct children) :=
  silent fun _ => rfl

theorem enter (limits : Limits) (parent : Option NodeId) (kind : Kind) (tree : Tree) :
    Speaks (enter limits parent kind tree) := by
  refine silent fun before => ?_
  rw [enter_run]
  cases limits.check .nodes (before.nodes.size + 1) <;> rfl

end Speaks

theorem speaks_closed : Closed (·.source = .reading) Speaks where
  bind := Speaks.bind
  pure := Speaks.pure
  lift := Speaks.lift
  enter := Speaks.enter
  report := Speaks.report
  leave := Speaks.leave
  skipped := source_of_steps
  stated := source_of_withFacets

theorem document_speaks (limits : Limits) (source : Document) : Speaks (document limits source) := by
  unfold document
  split
  · exact .silent fun _ => rfl
  · next tree _ =>
    split
    · exact .silent fun _ => rfl
    · refine (speaks_closed.node_holds limits none .schema tree).bind fun root => ?_
      refine Speaks.bind (.silent fun _ => rfl) fun state => ?_
      exact (Speaks.report (by simp [Notice.source])).bind fun _ => .pure root

end Speaks

end Reading

section Resolution
open Notice
variable {nodes : Nodes} {index : Index}

/-- A notice of a name that stays. -/
inductive Notice.OfName : Notice → Prop where
  | type (name : String) : OfName (.unresolvedType name)
  | reference (kind name : String) : OfName (.unresolvedReference kind name)

theorem Node.resolve_ofName (node : Node) : ∀ notice ∈ (node.resolve index).2, notice.OfName := by
  intro notice listed
  rw [Node.resolve, Construct.resolve_notices, List.mem_append, List.mem_map, List.mem_map] at listed
  rcases listed with ⟨name, _, rfl⟩ | ⟨name, _, rfl⟩
  · exact .type name
  · exact .reference _ name

theorem Node.resolve_names (node : Node) : (node.resolve index).2.map (·.details.lookup "name") =
    (Schema.unresolvedTypes (node.resolve index).1 ++ (Schema.unresolvedRef? (node.resolve index).1).toList).map
      some := by
  have types (name : String) : (unresolvedType name).details.lookup "name" = some name := rfl
  have refs (kind name : String) : (unresolvedReference kind name).details.lookup "name" = some name := rfl
  rw [Schema.unresolvedTypes_eq, Schema.unresolvedRef_eq, Node.resolve, Construct.resolve_notices,
    List.map_append, List.map_append, List.map_map, List.map_map]
  simp only [Function.comp_def, types, refs]

theorem Index.notices_add {node : Node} {id : NodeId} :
    ∀ notice ∈ (index.add nodes node id).2, ∃ kind name, notice = .duplicateDeclaration kind name := by
  intro notice listed
  unfold add at listed
  split at listed
  · cases listed
  · split at listed
    · cases listed
    · split at listed
      · exact ⟨_, _, List.mem_singleton.mp listed⟩
      · cases listed

theorem Index.notices_ofNodes :
    ∀ notice ∈ (ofNodes nodes).2, ∃ kind name, notice = .duplicateDeclaration kind name := by
  have added (pairs : List (Node × NodeId)) (known : Index × List Notice)
      (old : ∀ notice ∈ known.2, ∃ kind name, notice = .duplicateDeclaration kind name) :
      ∀ notice ∈ (pairs.foldl (fun known pair =>
        ((known.1.add nodes pair.1 pair.2).1, known.2 ++ (known.1.add nodes pair.1 pair.2).2)) known).2,
        ∃ kind name, notice = .duplicateDeclaration kind name := by
    induction pairs generalizing known with
    | nil => exact old
    | cons pair pairs ih =>
      exact ih _ fun notice listed => (List.mem_append.mp listed).elim (old notice) (notices_add notice)
  exact added _ _ (List.forall_mem_nil _)

theorem Nodes.resolve_names (nodes : Nodes) :
    ((warnings nameSentences nodes.resolve.notices).map (·.details.lookup "name")).Perm
    ((nodes.resolve.nodes.toList.flatMap Schema.unresolvedTypes ++
      nodes.resolve.nodes.toList.filterMap Schema.unresolvedRef?).map some) := by
  generalize known : (Index.ofNodes nodes).1 = index
  have duplicates : warnings nameSentences (Index.ofNodes nodes).2 = [] := by
    refine List.filter_eq_nil_iff.mpr fun notice listed => ?_
    obtain ⟨kind, name, rfl⟩ := Index.notices_ofNodes notice listed
    simp [nameSentences, message]
  have all : warnings nameSentences ((nodes.map (Node.resolve index)).toList.flatMap Prod.snd) =
      (nodes.map (Node.resolve index)).toList.flatMap Prod.snd := by
    refine List.filter_eq_self.mpr fun notice listed => ?_
    obtain ⟨_, resolved, own⟩ := List.mem_flatMap.mp listed
    rw [Array.toList_map] at resolved
    obtain ⟨node, _, rfl⟩ := List.mem_map.mp resolved
    cases node.resolve_ofName notice own <;> simp [nameSentences, message, level]
  have names : ((nodes.map (Node.resolve index)).toList.flatMap Prod.snd).map (·.details.lookup "name") =
      (nodes.resolve.nodes.toList.flatMap fun node => Schema.unresolvedTypes node ++
          (Schema.unresolvedRef? node).toList).map some := by
    rw [Nodes.resolve_nodes, known, List.map_flatMap, List.map_flatMap, Array.toList_map, Array.toList_map,
      List.flatMap_map, List.flatMap_map]
    simp only [Node.resolve_names]
  have notices : nodes.resolve.notices = (Index.ofNodes nodes).2 ++
    (nodes.map (Node.resolve index)).toList.flatMap Prod.snd ++
      [.referencesResolved ((nodes.map (Node.resolve index)).toList.flatMap Prod.snd).length] := by
    rw [← known]
    rfl
  rw [notices, warnings_append, warnings_append, duplicates, all, List.nil_append]
  have last (count : Nat) : warnings nameSentences [.referencesResolved count] = [] := rfl
  rw [last, List.append_nil, names, List.filterMap_eq_flatMap_toList]
  exact (List.flatMap_append_perm _ _ _).symm.map some

theorem Nodes.resolve_unsummed (nodes : Nodes) : warnings summarySentences nodes.resolve.notices = [] := by
  refine List.filter_eq_nil_iff.mpr fun notice listed => ?_
  rw [Nodes.resolve, List.mem_append, List.mem_append, List.mem_singleton] at listed
  rcases listed with (duplicate | unresolved) | rfl
  · obtain ⟨kind, name, rfl⟩ := Index.notices_ofNodes notice duplicate
    simp [summarySentences, message]
  · obtain ⟨_, resolved, own⟩ := List.mem_flatMap.mp unresolved
    rw [Array.toList_map] at resolved
    obtain ⟨node, _, rfl⟩ := List.mem_map.mp resolved
    cases node.resolve_ofName notice own <;> simp [summarySentences, message]
  · simp [summarySentences, message]

theorem Schema.ofNodes_reports (nodes : Nodes) (root : NodeId) :
    ((warnings nameSentences (ofNodes nodes root).2).map (·.details.lookup "name")).Perm
    ((ofNodes nodes root).1.unresolved.map some) ∧
      (warnings summarySentences (ofNodes nodes root).2).map Notice.details =
        if (ofNodes nodes root).1.unresolved = [] then []
        else [[("unresolved", toString (ofNodes nodes root).1.unresolved.length)]] := by
  have count : nodes.resolve.unresolved = (ofNodes nodes root).1.unresolved.length := by
    rw [unresolved_length]
    exact nodes.resolve_unresolved
  have notices : (ofNodes nodes root).2 =
      nodes.resolve.notices ++
        if nodes.resolve.unresolved = 0 then [] else [.schemaUnresolved nodes.resolve.unresolved] := rfl
  rw [notices, warnings_append, warnings_append, nodes.resolve_unsummed, List.nil_append, count]
  constructor
  · have unnamed : warnings nameSentences (if (ofNodes nodes root).1.unresolved.length = 0 then []
        else [.schemaUnresolved (ofNodes nodes root).1.unresolved.length]) = [] := by
      split <;> rfl
    rw [unnamed, List.append_nil]
    exact nodes.resolve_names
  · simp only [List.length_eq_zero_iff]
    split <;> rfl

/-- While a schema is loaded each name that it has as unresolved is warned of once, and their number is, if
there are any. -/
theorem Schema.load_reports {limits : Limits} {document : Document} {links : Reading.Links} {schema : Schema}
    (loads : (load limits document links).result = .ok schema) :
    ((warnings nameSentences (load limits document links).notices).map (·.details.lookup "name")).Perm
    (schema.unresolved.map some) ∧
      (warnings summarySentences (load limits document links).notices).map Notice.details =
        if schema.unresolved = [] then [] else [[("unresolved", toString schema.unresolved.length)]] := by
  obtain ⟨said, same, sources⟩ := Reading.document_speaks limits document { links }
  rw [List.nil_append] at same
  have apart (notice : Notice) (listed : notice ∈ said) : notice.source ≠ .resolution := by
    rw [sources notice listed]
    decide
  have names : warnings nameSentences said = [] := warnings_of_source (List.subset_append_left _ _) apart
  have summaries : warnings summarySentences said = [] := warnings_of_source (List.subset_append_right _ _) apart
  rcases outcome : (Reading.document limits document).run { links } with ⟨error | root, state⟩
  · rw [load, outcome] at loads
    cases loads
  · rw [outcome] at same
    have notices : (load limits document links).notices = said ++ (ofNodes state.nodes root).2 := by
      rw [load, outcome, ← same]
    have result : schema = (ofNodes state.nodes root).1 := by
      rw [load, outcome] at loads
      exact (Except.ok.inj loads).symm
    rw [notices, result, warnings_append, warnings_append, names, summaries]
    exact ofNodes_reports state.nodes root

end Resolution

end SchemaClasses
