import SchemaClasses.Proofs.Schema.Arena
import SchemaClasses.Proofs.Schema.Resolution
import SchemaClasses.Proofs.Schema.Selection

/-! Where nodes stand. A node has children only of the kinds that there is a place for in it. -/

namespace SchemaClasses

namespace Reading

/-- The kinds that there is a place for in a construct. Those in a restriction depend on what it stands in. -/
def places (parent : Option Kind) : Kind → List Kind
  | .schema => topLevel
  | .sequence | .choice | .all => particles
  | kind => (slots parent kind).map Slot.kind

private theorem mem_of_among {kinds : List Kind} {other : String → Notice} {tree child : Tree} {kind : Kind}
    (listed : Step.read kind child ∈ tree.children.filterMap (stepAmong kinds other)) : kind ∈ kinds := by
  obtain ⟨_, _, step⟩ := List.mem_filterMap.mp listed
  unfold stepAmong at step
  split at step
  · next found =>
    cases step
    exact List.mem_of_find?_eq_some found
  · split at step <;> cases step

private theorem mem_of_slot {parent : Option Kind} {kind childKind : Kind} {tree child : Tree}
    (listed : Step.read childKind child ∈ (slots parent kind).flatMap (Slot.steps tree)) :
    childKind ∈ (slots parent kind).map Slot.kind := by
  obtain ⟨slot, member, inside⟩ := List.mem_flatMap.mp listed
  have same : slot.kind = childKind := by
    cases slot <;>
    · obtain ⟨_, _, read⟩ := List.mem_map.mp inside
      cases read
      rfl
  exact same ▸ List.mem_map_of_mem member

theorem places_of_steps {parent : Option Kind} {kind childKind : Kind} {tree child : Tree}
    (listed : .read childKind child ∈ steps parent kind tree) : childKind ∈ places parent kind := by
  cases kind with
  | schema | sequence | choice | all => exact mem_of_among listed
  | _ => exact mem_of_slot listed

end Reading

namespace Nodes

/-- A node stands behind its parent, and its children are in places of theirs. -/
structure Housed (nodes : Nodes) (id : NodeId) : Prop where
  parent : ∀ outer, (nodes.get id).parent = some outer → outer < id
  children : ∀ child ∈ (nodes.get id).children, child.kind ∈
    Reading.places ((nodes.get id).parent.map nodes.kindOf) (nodes.kindOf id)

theorem Housed.congr {nodes later : Nodes} {id : NodeId} (housed : nodes.Housed id)
    (parent : (later.get id).parent = (nodes.get id).parent)
    (children : (later.get id).children = (nodes.get id).children)
    (kind : ∀ other ≤ id, later.kindOf other = nodes.kindOf other) :
    later.Housed id where
  parent outer stands := housed.parent outer (parent ▸ stands)
  children child member := by
    have same : (later.get id).parent.map later.kindOf = (nodes.get id).parent.map nodes.kindOf := by
      rw [parent]
      exact Option.map_congr fun outer stands => kind outer (Nat.le_of_lt (housed.parent outer stands))
    rw [same, kind id (Nat.le_refl _)]
    exact housed.children child (children ▸ member)

end Nodes

namespace Reading

theorem Extends.housed {before after : Nodes} (grown : Extends before after) {id : NodeId} (inside : id < before.size)
    (housed : before.Housed id) : after.Housed id := by
  have same (other : NodeId) (earlier : other ≤ id) : after.get other = before.get other :=
    grown.old other (Nat.lt_of_le_of_lt earlier inside)
  refine housed.congr ?_ ?_ fun other earlier => ?_
  · rw [same id (Nat.le_refl _)]
  · rw [same id (Nat.le_refl _)]
  · rw [Nodes.kindOf, same other earlier, Nodes.kindOf]

/-- All new nodes are in places. -/
def Houses (before after : Nodes) : Prop :=
  ∀ id, before.size ≤ id → id < after.size → after.Housed id

theorem Houses.trans {before middle after : Nodes} (first : Houses before middle) (last : Houses middle after)
    (grown : Extends middle after) :
    Houses before after := by
  intro id later inside
  rcases Nat.lt_or_ge id middle.size with earlier | new
  · exact grown.housed earlier (first id later earlier)
  · exact last id new inside

/-- The node that another is read in is there with its kind. -/
def Stands (nodes : Nodes) (parent : Option Child) : Prop :=
  ∀ own, parent = some own → own.id < nodes.size ∧ nodes.kindOf own.id = own.kind

theorem Stands.grown {before after : Nodes} {parent : Option Child} (stands : Stands before parent)
    (grown : Extends before after) :
    Stands after parent := by
  intro own same
  obtain ⟨inside, kind⟩ := stands own same
  refine ⟨Nat.lt_of_lt_of_le inside grown.size, ?_⟩
  rw [Nodes.kindOf, grown.old own.id inside]
  exact kind

theorem children_house {limits : Limits} {own : Child} {steps : List Step} {children : List Child}
    {before after : State} (inner : ∀ kind tree, .read kind tree ∈ steps →
      ∀ before id after, Stands before.nodes (some own) →
      Ends (node limits (some own) kind tree) before id after → Houses before.nodes after.nodes)
    (stands : Stands before.nodes (some own))
    (ends : Ends (steps.filterMapM (readStep limits own)) before children after) :
    Houses before.nodes after.nodes := by
  induction steps generalizing before children with
  | nil =>
    obtain ⟨rfl, rfl⟩ := Ends.pure ends
    exact fun _ behind within => absurd within (Nat.not_lt.mpr behind)
  | cons step steps ih =>
    have inner' (kind : Kind) (tree : Tree) (member : .read kind tree ∈ steps) :=
      inner kind tree (List.mem_cons_of_mem _ member)
    cases step with
    | skip notice =>
      exact @ih children { before with notices := before.notices ++ [notice] } inner' stands (skip_ends ends)
    | read kind tree =>
      obtain ⟨id, middle, rest, node, remaining, rfl⟩ := read_ends ends
      have read := (node_isRead node).grown
      have further := children_read (fun kind tree _ before id after => node_isRead) remaining
      exact (inner kind tree List.mem_cons_self _ _ _ stands node).trans
        (ih inner' (stands.grown read) remaining) further.grown

theorem houses_of_children {before middle : Nodes} {parent : Option Child} {kind : Kind} {tree : Tree}
    {label : Option String} {construct : Construct} {children : List Child}
    (read : AreRead (before.push { label, parent := parent.map Child.id, construct := .bare kind }) middle before.size
      (steps (parent.map Child.kind) kind tree) children)
    (inner : Houses (before.push { label, parent := parent.map Child.id, construct := .bare kind }) middle)
    (stands : Stands before parent) (own : construct.kind = kind) :
    Houses before (middle.modify before.size ({ · with construct, children := arrange kind children })) := by
  have size := read.grown.size
  rw [Array.size_push] at size
  have fresh := read.grown.old before.size (by rw [Array.size_push]; exact Nat.lt_succ_self _)
  rw [get_push_new] at fresh
  have self := get_modify_same (f := ({ · with construct, children := arrange kind children })) (Nat.lt_of_succ_le size)
  have other {id : NodeId} (different : before.size ≠ id) :
      Nodes.get (middle.modify before.size ({ · with construct, children := arrange kind children })) id =
        middle.get id :=
    get_modify_other different
  have kinds (id : NodeId) :
      Nodes.kindOf (middle.modify before.size ({ · with construct, children := arrange kind children })) id =
          middle.kindOf id := by
    by_cases same : before.size = id
    · subst same
      rw [Nodes.kindOf, self, Nodes.kindOf, fresh, Node.kind, own, Node.kind]
      cases kind <;> rfl
    · rw [Nodes.kindOf, other same, Nodes.kindOf]
  intro id later inside
  rw [Array.size_modify] at inside
  rcases Nat.eq_or_lt_of_le later with rfl | later
  · refine ⟨fun outer above => ?_, fun child member => ?_⟩
    · rw [self, fresh] at above
      obtain ⟨own, same, rfl⟩ := Option.map_eq_some_iff.mp above
      exact (stands own same).1
    · have above : (parent.map Child.id).map middle.kindOf = parent.map Child.kind := by
        rw [Option.map_map]
        refine Option.map_congr fun own same => ?_
        obtain ⟨inside, kind⟩ := stands own same
        rw [Function.comp_apply, Nodes.kindOf,
          read.grown.old own.id (by rw [Array.size_push]; exact Nat.lt_succ_of_lt inside), get_push_old inside]
        exact kind
      have listed : child ∈ children := by
        rw [self] at member
        exact mem_arrange member
      obtain ⟨_, step⟩ := read.listed child listed
      rw [self, fresh, funext kinds, above, Nodes.kindOf, fresh, Node.kind]
      have bare : (Construct.bare kind).kind = kind := by cases kind <;> rfl
      rw [bare]
      exact places_of_steps step
  · have housed := inner id (by rw [Array.size_push]; exact later) inside
    exact housed.congr (by rw [other (Nat.ne_of_lt later)]) (by rw [other (Nat.ne_of_lt later)]) fun other _ =>
      kinds other

theorem node_houses {limits : Limits} {parent : Option Child} {kind : Kind} {tree : Tree} {id : NodeId}
    {before after : State} (stands : Stands before.nodes parent)
    (ends : Ends (node limits parent kind tree) before id after) :
    Houses before.nodes after.nodes := by
  obtain ⟨entered, construct, children, middle, enters, stated, stepped, _, nodes⟩ := node_ends ends
  obtain ⟨rfl, pushed⟩ := enter_ends enters
  have entry : Stands entered.nodes (some ⟨kind, before.nodes.size⟩) := by
    intro _ same
    cases same
    rw [pushed, Array.size_push, Nodes.kindOf, get_push_new, Node.kind]
    exact ⟨Nat.lt_succ_self _, by cases kind <;> rfl⟩
  have inner := children_house (fun childKind child listed before id after stands ends =>
    node_houses stands ends) entry stepped
  have read := children_read (fun childKind child listed before id after ends => node_isRead ends) stepped
  rw [pushed] at inner read
  have own := stated_ok stated
  rw [nodes]
  exact houses_of_children read inner stands ((withFacets_ok own.2).1.trans own.1)
termination_by sizeOf tree
decreasing_by exact Tree.sizeOf_lt_of_mem_children (mem_children_of_mem_steps listed)

end Reading

/-- Whatever is loaded is in its place. -/
theorem Schema.Loaded.housed {schema : Schema} (loaded : schema.Loaded) (id : NodeId) : schema.nodes.Housed id := by
  obtain ⟨limits, source, links, loaded⟩ := loaded
  unfold load at loaded
  rcases outcome : (Reading.document limits source).run { links } with ⟨failed | root, state⟩
  · simp [outcome] at loaded
  · simp only [outcome, Except.ok.injEq] at loaded
    obtain ⟨_, middle, _, _, read, same, _⟩ := Reading.document_ends outcome
    have housed : state.nodes.Housed id := by
      rw [same]
      rcases Nat.lt_or_ge id middle.nodes.size with inside | outside
      · exact Reading.node_houses (fun _ none => by cases none) read id (Nat.zero_le _) inside
      · have absent := Nodes.get_outside outside
        constructor <;> rw [absent]
        · exact fun _ above => by cases above
        · exact fun _ member => by cases member
    have resolved := Nodes.resolve_get state.nodes id
    rw [← loaded]
    change state.nodes.resolve.nodes.Housed id
    exact housed.congr (by rw [resolved]; rfl) (by rw [resolved]; rfl) fun other _ => Nodes.resolve_kindOf other

end SchemaClasses
