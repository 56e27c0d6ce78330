import SchemaClasses.Proofs.Schema.Stitching

/-! Parents by their links. What a node stands in can as well be looked up when it is read: it is the node that the
element's parent is linked to. Links that an earlier run left do not get in the way. -/

namespace SchemaClasses

namespace Reading

/-- Reads an element as a construct, and its children after it. The node stands in the one that the element's parent is
linked to. -/
def nodeByLinks (limits : Limits) (kind : Kind) (tree : Tree) : M NodeId := do
  let above := tree.element.parent >>= (← get).links.node?
  let id ← enter limits above kind tree
  let nodes := (← get).nodes
  let parent := (nodes.get id).parent.map nodes.kindOf
  let construct ← stated tree kind
  let children ← (steps parent kind tree).attach.filterMapM fun ⟨step, _⟩ =>
    match step with
    | .skip notice => do
      report [notice]
      return none
    | .read childKind child => do
      return some ⟨childKind, ← nodeByLinks limits childKind child⟩
  let (construct, notices) := withFacets tree parent construct
  report notices
  leave id construct (arrange kind children)
  return id
  termination_by sizeOf tree
  decreasing_by exact Tree.sizeOf_lt_of_mem_children (mem_children_of_mem_steps ‹_›)

def documentByLinks (limits : Limits) (document : Document) : M NodeId := do
  match document.tree? with
  | none => throw .emptySchema
  | some tree =>
    if tree.name ≠ Kind.schema.tag then throw (.unexpectedRoot tree.name)
    let root ← nodeByLinks limits .schema tree
    report [.schemaParsed (← get).nodes.size]
    return root

def stepByLinks (limits : Limits) : Step → M (Option Child)
  | .skip notice => do
    report [notice]
    return none
  | .read kind child => do
    return some ⟨kind, ← nodeByLinks limits kind child⟩

theorem nodeByLinks_eq (limits : Limits) (kind : Kind) (tree : Tree) :
    nodeByLinks limits kind tree = (do
      let above := tree.element.parent >>= (← get).links.node?
      let id ← enter limits above kind tree
      let nodes := (← get).nodes
      let parent := (nodes.get id).parent.map nodes.kindOf
      let construct ← stated tree kind
      let children ← (steps parent kind tree).filterMapM (stepByLinks limits)
      report (withFacets tree parent construct).2
      leave id (withFacets tree parent construct).1 (arrange kind children)
      return id) := by
  rw [nodeByLinks]
  refine bind_congr fun state => bind_congr fun id => bind_congr fun entered => bind_congr fun construct => ?_
  congr 1
  rw [List.filterMapM_subtype (g := stepByLinks limits) ?_, List.unattach_attach]
  rintro (⟨_, _⟩ | _) _ <;> rfl

section Runs
variable {source : Document} {limits : Limits} (formed : source.Formed)
include formed

theorem children_run {own : Child} {place : Nat} {steps : List Step} (siblings : Siblings source place steps)
    (inner : ∀ kind child, .read kind child ∈ steps → ∀ before, Linked before place own →
      before.links.size = source.size →
      (nodeByLinks limits kind child).run before = (node limits (some own) kind child).run before)
    {before : State} (linked : Linked before place own) (sized : before.links.size = source.size) :
    (steps.filterMapM (stepByLinks limits)).run before = (steps.filterMapM (readStep limits own)).run before := by
  induction steps generalizing before with
  | nil => rfl
  | cons step steps ih =>
    have inner' (kind : Kind) (child : Tree) (member : .read kind child ∈ steps) :=
      inner kind child (List.mem_cons_of_mem _ member)
    rw [List.filterMapM_cons, List.filterMapM_cons, run_bind, run_bind]
    cases step with
    | skip notice => exact ih siblings.tail inner' ⟨linked.slot, linked.inside, linked.kind⟩ sized
    | read kind child =>
      have same : (stepByLinks limits (.read kind child)).run before =
          (readStep limits own (.read kind child)).run before := by
        rw [stepByLinks, readStep, run_bind, run_bind, inner kind child List.mem_cons_self before linked sized]
      rw [same, readStep, run_bind]
      rcases outcome : (node limits (some own) kind child).run before with ⟨error | id, middle⟩
      · rfl
      · have holds := siblings.holds kind child List.mem_cons_self
        have kept := node_frame formed holds outcome (siblings.below formed List.mem_cons_self)
        have later := linked.kept (node_isRead outcome).grown.keeps kept
        have rest := ih siblings.tail inner' later ((node_sized outcome).trans sized)
        change (steps.filterMapM (stepByLinks limits) >>= _ : M (List Child)).run middle =
          (steps.filterMapM (readStep limits own) >>= _ : M (List Child)).run middle
        rw [run_bind, run_bind, rest]

theorem node_run {parent : Option Child} {kind : Kind} {tree : Tree} (holds : source.Holds tree) {before : State}
    (above : tree.element.parent >>= before.links.node? = parent.map Child.id)
    (known : ∀ outer, parent = some outer → outer.id < before.nodes.size ∧ before.nodes.kindOf outer.id = outer.kind)
    (sized : before.links.size = source.size) :
    (nodeByLinks limits kind tree).run before = (node limits parent kind tree).run before := by
  rw [nodeByLinks_eq, node_eq]
  change (enter limits (tree.element.parent >>= before.links.node?) kind tree >>= _ : M NodeId).run before = _
  rw [above, run_bind, run_bind]
  rcases enters : (enter limits (parent.map Child.id) kind tree).run before with ⟨error | id, entered⟩
  · rfl
  · obtain ⟨first, pushed⟩ := enter_ends enters
    have inside : tree.index < before.links.size := by
      rw [sized]
      exact holds.inside .refl
    obtain ⟨linked, sized'⟩ := enter_linked enters inside
    -- The node that was entered has the parent that it was given, and that still has its kind.
    have same : (entered.nodes.get id).parent.map entered.nodes.kindOf = parent.map Child.kind := by
      rw [pushed, first, get_push_new]
      cases parent with
      | none => rfl
      | some outer =>
        obtain ⟨earlier, kind⟩ := known outer rfl
        rw [Option.map_some, Option.map_some, Option.map_some, Nodes.kindOf, get_push_old earlier]
        exact congrArg some kind
    have siblings := Siblings.ofTree formed holds (parent.map Child.kind) kind
    have inner : ∀ childKind child, .read childKind child ∈ steps (parent.map Child.kind) kind tree → ∀ before,
        Linked before tree.index ⟨kind, id⟩ → before.links.size = source.size →
          (nodeByLinks limits childKind child).run before =
              (node limits (some ⟨kind, id⟩) childKind child).run before := by
      intro childKind child listed before linked sized
      have whole := siblings.holds childKind child listed
      have stands := siblings.stands childKind child listed
      rw [whole.parent?] at stands
      apply node_run whole
      · rw [stands]
        exact linked.slot
      · intro outer own
        cases own
        exact ⟨linked.inside, linked.kind⟩
      · exact sized
    have children := children_run formed siblings inner linked (sized'.trans sized)
    have get_run : (get : M State).run entered = (.ok entered, entered) := rfl
    simp only [run_bind, get_run, same, run_lift]
    cases stated tree kind with
    | error error => rfl
    | ok construct => simp only [children]
termination_by sizeOf tree
decreasing_by exact Tree.sizeOf_lt_of_mem_children (mem_children_of_mem_steps listed)

theorem document_run {links : Links} (sized : links.size = source.size) :
    (documentByLinks limits source).run { links } = (document limits source).run { links } := by
  unfold documentByLinks document
  cases found : source.tree? with
  | none => rfl
  | some tree =>
    by_cases named : tree.name ≠ Kind.schema.tag
    · simp only [if_pos named]
      rfl
    · simp only [if_neg named]
      obtain ⟨first, holds⟩ := formed.of_tree? found
      have top := holds.root_parent formed first
      have same : (nodeByLinks limits .schema tree).run { links } = (node limits none .schema tree).run { links } := by
        apply node_run formed holds
        · rw [top]
          rfl
        · exact fun outer own => by cases own
        · exact sized
      rw [run_bind, run_bind, same]

end Runs

/-- The nodes that are read from a document are a tree that is numbered depth first and mirrors the elements that are
linked. What earlier runs have linked makes no difference to them, even if parents are looked up. -/
theorem arena_mirrors {bounds limits : Limits} {bytes : List UInt8} {source : Document} {links : Links} {root : NodeId}
    {after : State}
    (read : Document.read bounds bytes = .ok source) (left : Left source links)
    (ends : (document limits source).run { links } = (.ok root, after)) :
    root = 0 ∧ after.nodes.Arena ∧ Mirrors source after.links after.nodes ∧
      ∀ other : Links, other.size = source.size → ∃ later, later.nodes = after.nodes ∧
        (document limits source).run { links := other } = (.ok root, later) ∧
          (documentByLinks limits source).run { links := other } = (.ok root, later) := by
  have formed := Document.read_formed read
  obtain ⟨first, arena⟩ := document_arena ends
  refine ⟨first, arena, document_mirrors formed left ends, fun other sized => ?_⟩
  obtain ⟨same, alike⟩ := document_blind limits source { links := other } { links } ⟨rfl, rfl⟩
  rw [ends] at same alike
  rcases outcome : (document limits source).run { links := other } with ⟨result, later⟩
  rw [outcome] at same alike
  obtain rfl : result = .ok root := same
  exact ⟨later, alike.nodes, rfl, (document_run formed sized).trans outcome⟩

end Reading

/-- A schema that lists a type before an element, with an annotation between them. -/
def Document.regrouped : Document where
  elements := #[
    { name := "schema", children := #[1, 3, 4] },
    { name := "simpleType", children := #[2], parent := some 0 },
    { name := "list", parent := some 1 },
    { name := "annotation", parent := some 0 },
    { name := "element", parent := some 0 }]
  root := some 0

namespace Reading

/-- The element comes first among the children, though it was read last. -/
def State.regrouped : State where
  nodes := #[
    { construct := .schema none, children := [⟨.element, 3⟩, ⟨.simpleType, 1⟩] },
    { parent := some 0, construct := .simpleType none, children := [⟨.list, 2⟩] },
    { parent := some 1, construct := .list none },
    { parent := some 0, construct := .element {} }]
  links := #[some 0, some 1, some 2, none, some 3]
  notices := [.schemaParsed 4]

/-- The links are those of a run that failed after two nodes. -/
theorem arena_mirrors_regrouped :
    Document.read {} "<schema><simpleType><list/></simpleType><annotation/><element/></schema>".toUTF8.toList =
      .ok .regrouped ∧
      Left .regrouped #[some 0, some 1, none, none, none] ∧
      (document {} .regrouped).run { links := #[some 0, some 1, none, none, none] } = (.ok 0, .regrouped) ∧
      (0 = 0 ∧ State.regrouped.nodes.Arena ∧ Mirrors .regrouped State.regrouped.links State.regrouped.nodes ∧
        ∀ other : Links, other.size = Document.regrouped.size → ∃ later, later.nodes = State.regrouped.nodes ∧
          (document {} .regrouped).run { links := other } = (.ok 0, later) ∧
            (documentByLinks {} .regrouped).run { links := other } = (.ok 0, later)) := by
  have read : Document.read
    {} "<schema><simpleType><list/></simpleType><annotation/><element/></schema>".toUTF8.toList =
      .ok .regrouped := by cbv
  have failed : ((document { nodes := 2 } .regrouped).run
    { links := Array.replicate Document.regrouped.size none }).2.links =
      #[some 0, some 1, none, none, none] := by cbv
  have left : Left .regrouped #[some 0, some 1, none, none, none] := failed ▸ .run { nodes := 2 } .fresh
  have ends : (document {} .regrouped).run { links := #[some 0, some 1, none, none, none] } = (.ok 0,
      .regrouped) := by cbv
  exact ⟨read, left, ends, arena_mirrors read left ends⟩

end Reading
end SchemaClasses
