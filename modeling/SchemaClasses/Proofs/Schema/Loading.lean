import SchemaClasses.Proofs.Schema.Formed
import SchemaClasses.Schema.Basic

/-! Every schema that is loaded is well formed. Reading numbers the nodes so that what is read later lies
behind what was read before, and resolution changes nothing but references. -/

namespace SchemaClasses

namespace Reading

section Ends
variable {α β : Type} {before after : State}

/-- Steps that end well. -/
def Ends (steps : M α) (before : State) (result : α) (after : State) : Prop :=
  steps.run before = (.ok result, after)

theorem Ends.bind {first : M α} {rest : α → M β} {result : β} (ends : Ends (first >>= rest) before result after) :
    ∃ value middle, Ends first before value middle ∧ Ends (rest value) middle result after := by
  simp only [Ends, ExceptT.run_bind] at ends ⊢
  rcases outcome : first.run before with ⟨value | value, middle⟩
  · simp only [Bind.bind, StateT.bind, outcome] at ends
    injection ends with failed
    cases failed
  · simp only [Bind.bind, StateT.bind, outcome] at ends
    exact ⟨value, middle, rfl, ends⟩

theorem Ends.pure {value result : α} (ends : Ends (Pure.pure value) before result after) :
    result = value ∧ after = before := by
  cases ends
  exact ⟨rfl, rfl⟩

theorem Ends.lift {value : Except Error α} {result : α} (ends : Ends (liftM value) before result after) :
    value = .ok result ∧ after = before := by
  cases value with
  | error _ => cases ends
  | ok value =>
    cases ends
    exact ⟨rfl, rfl⟩

theorem Ends.modify {change : State → State} {result : Unit}
    (ends : Ends (modify change) before result after) : after = change before := by
  cases ends
  rfl

theorem Ends.get {result : State} (ends : Ends get before result after) : result = before ∧ after = before := by
  cases ends
  exact ⟨rfl, rfl⟩

theorem Ends.set {state : State} {result : PUnit} (ends : Ends (set state) before result after) : after = state := by
  cases ends
  rfl

end Ends

/-- A construct whose references are still names. -/
def Unresolved (construct : Construct) : Prop :=
  (∀ ref ∈ construct.typeRefs, ∃ name, ref = .named name) ∧
    ∀ ref, construct.nodeRef? = some ref → ∃ name, ref = .named name

private theorem typeRef_named {tree : Tree} {name : String} {ref : TypeRef}
    (found : ref ∈ (typeRef? tree name).toList) :
    ∃ name, ref = .named name := by
  simp only [typeRef?, Option.mem_toList, Option.map_eq_some_iff] at found
  obtain ⟨name, _, rfl⟩ := found
  exact ⟨name, rfl⟩

private theorem nodeRef_named {tree : Tree} {ref : NodeRef} (found : nodeRef? tree = some ref) :
    ∃ name, ref = .named name := by
  simp only [nodeRef?, Option.map_eq_some_iff] at found
  obtain ⟨name, _, rfl⟩ := found
  exact ⟨name, rfl⟩

/-- What is read off an element is a construct of the kind that is expected. -/
theorem stated_ok {tree : Tree} {kind : Kind} {construct : Construct} (read : stated tree kind = .ok construct) :
    construct.kind = kind ∧ Unresolved construct := by
  have bound {α : Type} {x : Except Error α} {f : α → Except Error Construct} (ok : x >>= f = .ok construct) :
      ∃ value, f value = .ok construct := by
    cases x with
    | error _ => cases ok
    | ok value => exact ⟨value, ok⟩
  unfold stated at read
  cases kind with
  | element =>
    obtain ⟨_, read⟩ := bound read
    obtain ⟨_, read⟩ := bound read
    obtain ⟨_, read⟩ := bound read
    cases read
    exact ⟨rfl, fun _ => typeRef_named, fun _ => nodeRef_named⟩
  | attr =>
    obtain ⟨_, read⟩ := bound read
    cases read
    exact ⟨rfl, fun _ => typeRef_named, fun _ => nodeRef_named⟩
  | complexType =>
    obtain ⟨_, read⟩ := bound read
    obtain ⟨_, read⟩ := bound read
    cases read
    exact ⟨rfl, by simp [Construct.typeRefs], by simp [Construct.nodeRef?]⟩
  | sequence | choice | all | simpleContent | complexContent =>
    obtain ⟨_, read⟩ := bound read
    cases read
    exact ⟨rfl, by simp [Construct.typeRefs], by simp [Construct.nodeRef?]⟩
  | group =>
    obtain ⟨_, read⟩ := bound read
    cases read
    exact ⟨rfl, by simp [Construct.typeRefs], fun _ => nodeRef_named⟩
  | attrGroup =>
    cases read
    exact ⟨rfl, by simp [Construct.typeRefs], fun _ => nodeRef_named⟩
  | restriction | extension | list =>
    cases read
    exact ⟨rfl, fun _ => typeRef_named, by simp [Construct.nodeRef?]⟩
  | union =>
    cases read
    refine ⟨rfl, ?_, by simp [Construct.nodeRef?]⟩
    intro ref member
    cases names : tree.attribute? "memberTypes" with
    | none => simp [Construct.typeRefs, names] at member
    | some names' =>
      simp only [Construct.typeRefs, names, Option.map_some, Option.getD_some, List.mem_map] at member
      obtain ⟨name, _, rfl⟩ := member
      exact ⟨name, rfl⟩
  | schema | simpleType =>
    cases read
    exact ⟨rfl, by simp [Construct.typeRefs], by simp [Construct.nodeRef?]⟩

theorem withFacets_ok {tree : Tree} {parent : Option Kind} {construct : Construct} (unresolved : Unresolved construct) :
    (withFacets tree parent construct).1.kind = construct.kind ∧ Unresolved (withFacets tree parent construct).1 := by
  unfold withFacets
  split
  · split
    · exact ⟨rfl, unresolved⟩
    · exact ⟨rfl, unresolved.1, unresolved.2⟩
  · exact ⟨rfl, unresolved⟩

/-- The nodes read so far, and those read next: what was there stays as it was, and what is new is placed well. -/
structure Extends (before after : Nodes) : Prop where
  size : before.size ≤ after.size
  old : ∀ id < before.size, after.get id = before.get id
  placed : ∀ id, before.size ≤ id → id < after.size → after.Placed id
  unresolved : ∀ id, before.size ≤ id → id < after.size → Unresolved (after.get id).construct

theorem placed_mono {before after : Nodes} {id : NodeId} (placed : before.Placed id)
    (grows : before.size ≤ after.size)
    (same : ∀ other, id ≤ other → other < before.size → after.get other = before.get other)
    (inside : id < before.size) : after.Placed id := by
  have own := same id (Nat.le_refl _) inside
  have child {child : Child} (member : child ∈ (before.get id).children) :
      after.get child.id = before.get child.id :=
    same _ (Nat.le_of_lt (placed.after child member)) (placed.inside child member)
  constructor
  · rw [own]; exact placed.after
  · rw [own]; exact fun child member => Nat.lt_of_lt_of_le (placed.inside child member) grows
  · rw [own]
    intro other member
    simp only [Nodes.kindOf, child member]
    exact placed.kind other member
  · rw [own]
    intro other member
    rw [child member]
    exact placed.parent other member
  · rw [own]
    simp only [Nodes.kindOf, own]
    exact placed.particle

theorem Extends.refl (nodes : Nodes) : Extends nodes nodes :=
  ⟨Nat.le_refl _, fun _ _ => rfl, fun _ after before => absurd before (Nat.not_lt.mpr after),
    fun _ after before => absurd before (Nat.not_lt.mpr after)⟩

theorem Extends.trans {before middle after : Nodes} (first : Extends before middle) (last : Extends middle after) :
    Extends before after where
  size := Nat.le_trans first.size last.size
  old id inside := (last.old id (Nat.lt_of_lt_of_le inside first.size)).trans (first.old id inside)
  placed id behind inside := by
    rcases Nat.lt_or_ge id middle.size with earlier | later
    · exact placed_mono (first.placed id behind earlier) last.size (fun other _ => last.old other) earlier
    · exact last.placed id later inside
  unresolved id behind inside := by
    rcases Nat.lt_or_ge id middle.size with earlier | later
    · rw [last.old id earlier]
      exact first.unresolved id behind earlier
    · exact last.unresolved id later inside

/-- A node of a kind, with all that is inside of it. -/
structure IsRead (before after : Nodes) (parent : Option NodeId) (kind : Kind) (id : NodeId) : Prop where
  first : id = before.size
  grown : Extends before after
  inside : id < after.size
  kind : after.kindOf id = kind
  parent : (after.get id).parent = parent

def readStep (limits : Limits) (own : Child) : Step → M (Option Child)
  | .skip notice => do
    report [notice]
    return none
  | .read kind child => do
    return some ⟨kind, ← node limits (some own) kind child⟩

theorem node_eq (limits : Limits) (parent : Option Child) (kind : Kind) (tree : Tree) :
    node limits parent kind tree = (do
      let id ← enter limits (parent.map Child.id) kind tree
      let construct ← stated tree kind
      let children ← (steps (parent.map Child.kind) kind tree).filterMapM (readStep limits ⟨kind, id⟩)
      report (withFacets tree (parent.map Child.kind) construct).2
      leave id (withFacets tree (parent.map Child.kind) construct).1 (arrange kind children)
      return id) := by
  rw [node]
  congr 1
  funext id
  congr 1
  funext construct
  congr 1
  rw [List.filterMapM_subtype (g := readStep limits ⟨kind, id⟩) ?_, List.unattach_attach]
  rintro (⟨_, _⟩ | _) _ <;> rfl

/-- A node that is read is entered, then its children are read, and what it states itself is put in its place. -/
theorem node_ends {limits : Limits} {parent : Option Child} {kind : Kind} {tree : Tree} {id : NodeId}
    {before after : State} (ends : Ends (node limits parent kind tree) before id after) :
    ∃ entered construct children middle, Ends (enter limits (parent.map Child.id) kind tree) before id entered ∧
      stated tree kind = .ok construct ∧
      Ends ((steps (parent.map Child.kind) kind tree).filterMapM (readStep limits ⟨kind, id⟩)) entered children middle ∧
      after.links = middle.links ∧ after.nodes = middle.nodes.modify id ({ · with
        construct := (withFacets tree (parent.map Child.kind) construct).1
        children := arrange kind children }) := by
  rw [node_eq] at ends
  obtain ⟨id, entered, enters, afterEnter⟩ := ends.bind
  obtain ⟨construct, _, states, afterStated⟩ := afterEnter.bind
  obtain ⟨stated, rfl⟩ := states.lift
  obtain ⟨children, middle, stepped, afterChildren⟩ := afterStated.bind
  obtain ⟨_, _, reports, afterReport⟩ := afterChildren.bind
  obtain ⟨_, _, leaves, afterLeave⟩ := afterReport.bind
  obtain ⟨rfl, rfl⟩ := afterLeave.pure
  have reported := reports.modify
  have left := leaves.modify
  subst reported left
  exact ⟨_, construct, children, middle, enters, stated, stepped, rfl, rfl⟩

section Children
variable {limits : Limits} {own : Child} {steps : List Step} {children : List Child} {before after : State}

theorem skip_ends {notice : Notice}
    (ends : Ends ((.skip notice :: steps).filterMapM (readStep limits own)) before children after) :
    Ends (steps.filterMapM (readStep limits own))
    { before with notices := before.notices ++ [notice] } children after := by
  rw [List.filterMapM_cons] at ends
  obtain ⟨_, _, first, ends⟩ := ends.bind
  obtain ⟨_, _, reported, first⟩ := first.bind
  obtain ⟨rfl, rfl⟩ := first.pure
  have same := reported.modify
  subst same
  exact ends

theorem read_ends {kind : Kind} {tree : Tree}
    (ends : Ends ((.read kind tree :: steps).filterMapM (readStep limits own)) before children after) :
    ∃ id middle rest, Ends (node limits (some own) kind tree) before id middle ∧
      Ends (steps.filterMapM (readStep limits own)) middle rest after ∧ children = ⟨kind, id⟩ :: rest := by
  rw [List.filterMapM_cons] at ends
  obtain ⟨_, _, first, ends⟩ := ends.bind
  obtain ⟨id, middle, node, first⟩ := first.bind
  obtain ⟨rfl, rfl⟩ := first.pure
  obtain ⟨rest, _, remaining, ends⟩ := ends.bind
  obtain ⟨rfl, rfl⟩ := ends.pure
  exact ⟨id, _, rest, node, remaining, rfl⟩

structure AreRead (before after : Nodes) (own : NodeId) (steps : List Step) (children : List Child) : Prop where
  grown : Extends before after
  behind : ∀ child ∈ children, before.size ≤ child.id
  inside : ∀ child ∈ children, child.id < after.size
  kind : ∀ child ∈ children, after.kindOf child.id = child.kind
  parent : ∀ child ∈ children, (after.get child.id).parent = some own
  listed : ∀ child ∈ children, ∃ tree, .read child.kind tree ∈ steps

theorem AreRead.cons {before after : Nodes} {own : NodeId} {step : Step}
    (read : AreRead before after own steps children) :
    AreRead before after own (step :: steps) children :=
  { read with
    listed := fun child member => by
      obtain ⟨tree, member⟩ := read.listed child member
      exact ⟨tree, List.mem_cons_of_mem _ member⟩ }

theorem AreRead.add {before middle after : Nodes} {own id : NodeId} {kind : Kind} {tree : Tree}
    (rest : AreRead middle after own steps children) (first : IsRead before middle (some own) kind id) :
    AreRead before after own (.read kind tree :: steps) (⟨kind, id⟩ :: children) := by
  have kept : after.get id = middle.get id := rest.grown.old id first.inside
  refine ⟨first.grown.trans rest.grown, ?_, ?_, ?_, ?_, ?_⟩ <;> rintro child (_ | ⟨_, member⟩)
  · exact Nat.le_of_eq first.first.symm
  · exact Nat.le_trans first.grown.size (rest.behind child member)
  · exact Nat.lt_of_lt_of_le first.inside rest.grown.size
  · exact rest.inside child member
  · simpa only [Nodes.kindOf, kept] using first.kind
  · exact rest.kind child member
  · exact kept ▸ first.parent
  · exact rest.parent child member
  · exact ⟨tree, List.mem_cons_self⟩
  · exact rest.cons.listed child member

theorem children_read (inner : ∀ kind tree, .read kind tree ∈ steps → ∀ before id after,
      Ends (node limits (some own) kind tree) before id after → IsRead before.nodes after.nodes (some own.id) kind id)
    (ends : Ends (steps.filterMapM (readStep limits own)) before children after) :
    AreRead before.nodes after.nodes own.id steps children := by
  induction steps generalizing before children with
  | nil =>
    obtain ⟨rfl, rfl⟩ := Ends.pure ends
    exact ⟨.refl _, by simp, by simp, by simp, by simp, by simp⟩
  | cons step steps ih =>
    have inner' (kind : Kind) (tree : Tree) (member : .read kind tree ∈ steps) :=
      inner kind tree (List.mem_cons_of_mem _ member)
    cases step with
    | skip notice => exact (ih inner' (skip_ends ends)).cons
    | read kind tree =>
      obtain ⟨id, middle, rest, node, remaining, rfl⟩ := read_ends ends
      exact (ih inner' remaining).add (inner kind tree List.mem_cons_self _ _ _ node)

end Children

theorem enter_ends {limits : Limits} {parent : Option NodeId} {kind : Kind} {tree : Tree} {id : NodeId}
    {before after : State} (ends : Ends (enter limits parent kind tree) before id after) :
    id = before.nodes.size ∧
      after.nodes = before.nodes.push { label := tree.attribute? "id", parent, construct := .bare kind } := by
  obtain ⟨state, _, read, afterRead⟩ := Ends.bind ends
  obtain ⟨rfl, rfl⟩ := read.get
  obtain ⟨_, _, checked, afterCheck⟩ := afterRead.bind
  obtain ⟨_, rfl⟩ := checked.lift
  obtain ⟨_, _, stored, afterSet⟩ := afterCheck.bind
  have same := stored.set
  obtain ⟨rfl, rfl⟩ := afterSet.pure
  exact ⟨rfl, by rw [same]⟩

section Get
variable {nodes : Nodes} {id other : NodeId}

theorem get_push_old {node : Node} (inside : id < nodes.size) : Nodes.get (nodes.push node) id = nodes.get id := by
  simp only [Nodes.get, Array.getD_eq_getD_getElem?]
  rw [Array.getElem?_push_lt inside, Array.getElem?_eq_getElem inside]

theorem get_push_new {node : Node} : Nodes.get (nodes.push node) nodes.size = node := by
  simp [Nodes.get]

theorem get_modify_same {f : Node → Node} (inside : id < nodes.size) :
    Nodes.get (nodes.modify id f) id = f (nodes.get id) := by
  simp [Nodes.get, Array.getElem_modify, inside]

theorem get_modify_other {f : Node → Node} (different : id ≠ other) :
    Nodes.get (nodes.modify id f) other = nodes.get other := by
  simp [Nodes.get, Array.getElem?_modify, different]

end Get

theorem mem_arrange {kind : Kind} {children : List Child} {child : Child} (member : child ∈ arrange kind children) :
    child ∈ children := by
  unfold arrange at member
  split at member
  · obtain ⟨_, _, inside⟩ := List.mem_flatMap.mp member
    exact (List.mem_filter.mp inside).1
  · exact member

theorem particles_of_steps {parent : Option Kind} {kind childKind : Kind} {tree child : Tree} (model : kind.isModel)
    (listed : .read childKind child ∈ steps parent kind tree) : childKind ∈ particles := by
  have among : .read childKind child ∈ tree.children.filterMap (stepAmong particles .skippedParticle) := by
    cases kind <;> first | exact listed | cases model
  obtain ⟨found, _, step⟩ := List.mem_filterMap.mp among
  unfold stepAmong at step
  split at step
  · cases step
    exact List.mem_of_find?_eq_some ‹_›
  · split at step <;> cases step

/-- The node itself is put in its place last, when its children are there. -/
theorem isRead_of_children {before : Nodes} {parent : Option Child} {kind : Kind} {tree : Tree} {label : Option String}
    {construct : Construct} {children : List Child} {middle : Nodes}
    (read : AreRead (before.push { label, parent := parent.map Child.id, construct := .bare kind }) middle before.size
      (steps (parent.map Child.kind) kind tree) children)
    (own : construct.kind = kind) (unresolved : Unresolved construct) :
    IsRead before (middle.modify before.size ({ · with construct, children := arrange kind children }))
      (parent.map Child.id) kind before.size := by
  have inside : before.size < middle.size := by
    have grown := read.grown.size
    rw [Array.size_push] at grown
    exact grown
  have size : (middle.modify before.size ({ · with construct, children := arrange kind children })).size =
    middle.size :=
    Array.size_modify
  have self := get_modify_same (f := ({ · with construct, children := arrange kind children })) inside
  have other {id : NodeId} (different : before.size ≠ id) :
      Nodes.get (middle.modify before.size ({ · with construct, children := arrange kind children })) id =
        middle.get id :=
    get_modify_other different
  have behind {child : Child} (member : child ∈ arrange kind children) : before.size < child.id := by
    have behind := read.behind child (mem_arrange member)
    rw [Array.size_push] at behind
    exact behind
  refine ⟨rfl, ⟨size ▸ Nat.le_of_lt inside, ?_, ?_, ?_⟩, size ▸ inside, ?_, ?_⟩
  · intro id earlier
    rw [other (Nat.ne_of_gt earlier), read.grown.old id (by simp; omega), get_push_old earlier]
  · intro id later within
    rw [size] at within
    rcases Nat.eq_or_lt_of_le later with rfl | later
    · constructor <;> rw [self]
      · exact fun _ => behind
      · rw [size]
        exact fun child member => read.inside child (mem_arrange member)
      · intro child member
        simp only [Nodes.kindOf, other (Nat.ne_of_lt (behind member))]
        exact read.kind child (mem_arrange member)
      · intro child member
        rw [other (Nat.ne_of_lt (behind member))]
        exact read.parent child (mem_arrange member)
      · intro model child member
        simp only [Nodes.kindOf, Node.kind, self, own] at model
        obtain ⟨_, listed⟩ := read.listed child (mem_arrange member)
        exact particles_of_steps model listed
    · have placed := read.grown.placed id (by rw [Array.size_push]; exact later) within
      exact placed_mono placed (Nat.le_of_eq size.symm)
        (fun next after _ => other (Nat.ne_of_lt (Nat.lt_of_lt_of_le later after)))
        within
  · intro id later within
    rw [size] at within
    rcases Nat.eq_or_lt_of_le later with rfl | later
    · rw [self]
      exact unresolved
    · rw [other (Nat.ne_of_lt later)]
      exact read.grown.unresolved id (by rw [Array.size_push]; exact later) within
  · simp only [Nodes.kindOf, Node.kind, self, own]
  · rw [self, read.grown.old before.size (by simp)]
    simp [get_push_new]

theorem node_isRead {limits : Limits} {parent : Option Child} {kind : Kind} {tree : Tree} {id : NodeId}
    {before after : State} (ends : Ends (node limits parent kind tree) before id after) :
    IsRead before.nodes after.nodes (parent.map Child.id) kind id := by
  obtain ⟨entered, construct, children, middle, enters, stated, stepped, _, nodes⟩ := node_ends ends
  obtain ⟨rfl, pushed⟩ := enter_ends enters
  have read := children_read (fun childKind child listed before id after ends => node_isRead ends) stepped
  have own := stated_ok stated
  have facets := @withFacets_ok tree (parent.map Child.kind) _ own.2
  rw [pushed] at read
  rw [nodes]
  exact isRead_of_children read (facets.1.trans own.1) facets.2
termination_by sizeOf tree
decreasing_by exact Tree.sizeOf_lt_of_mem_children (mem_children_of_mem_steps listed)

theorem document_isRead {limits : Limits} {source : Document} {root : NodeId} {before after : State}
    (ends : Ends (document limits source) before root after) : IsRead before.nodes after.nodes none .schema root := by
  unfold document at ends
  split at ends
  · cases ends
  · split at ends
    · cases ends
    · obtain ⟨_, _, read, afterRead⟩ := ends.bind
      obtain ⟨_, _, counted, afterCount⟩ := afterRead.bind
      obtain ⟨rfl, rfl⟩ := counted.get
      obtain ⟨_, _, reported, afterReport⟩ := afterCount.bind
      obtain ⟨rfl, rfl⟩ := afterReport.pure
      have same := reported.modify
      subst same
      exact node_isRead read

end Reading

section Resolution
variable {nodes : Nodes} {index : Index} {id : NodeId}

/-- Declarations in an index are found under their kind and have a name. -/
def Index.Sound (nodes : Nodes) (index : Index) : Prop :=
  ∀ kind name id, ((kind, name), id) ∈ index →
    id < nodes.size ∧ nodes.kindOf id = kind ∧ (nodes.get id).name?.isSome

theorem Index.sound_add {node : Node} (sound : Index.Sound nodes index) (inside : nodes[id]? = some node) :
    Index.Sound nodes (index.add nodes node id).1 := by
  unfold Index.add
  split
  · exact sound
  · split
    · exact sound
    · split
      · exact sound
      · intro kind name other member
        rcases List.mem_append.mp member with old | new
        · exact sound kind name other old
        · simp only [List.mem_singleton, Prod.mk.injEq] at new
          obtain ⟨⟨rfl, rfl⟩, rfl⟩ := new
          have found : nodes.get other = node := by simp [Nodes.get, inside]
          refine ⟨(Array.getElem?_eq_some_iff.mp inside).1, by rw [Nodes.kindOf, found], ?_⟩
          rw [found]
          simp [*]

theorem Index.ofNodes_sound (nodes : Nodes) : Index.Sound nodes (Index.ofNodes nodes).1 := by
  unfold Index.ofNodes
  have inside : ∀ entry ∈ nodes.toList.zipIdx, nodes[entry.2]? = some entry.1 := by
    rintro ⟨node, id⟩ member
    have found := List.mem_zipIdx_iff_getElem?.mp member
    simpa using found
  refine List.foldlRecOn (motive := fun found : Index × List Notice => Index.Sound nodes found.1) _ _
    (by simp [Sound]) ?_
  exact fun found sound entry member => sound_add sound (inside entry member)

theorem Index.find?_sound {kind : Kind} {name : String} (sound : Index.Sound nodes index)
    (found : index.find? kind name = some id) :
    id < nodes.size ∧ nodes.kindOf id = kind ∧ (nodes.get id).name?.isSome := by
  refine sound kind (Name.localPart name) id ?_
  obtain ⟨before, after, same, _⟩ := List.lookup_eq_some_iff.mp found
  rw [same]
  simp

theorem Index.type_cases {name : String} :
    (∀ type, index.type name = .simple type → index.find? .simpleType name = some type) ∧
      ∀ type, index.type name = .complex type → index.find? .complexType name = some type := by
  unfold Index.type
  split
  · simp
  · split
    · next found => simp [found]
    · split
      · next found => simp [found]
      · simp

/-- Resolution fills in references and nothing else. -/
structure IsResolved (index : Index) (before after : Construct) : Prop where
  kind : after.kind = before.kind
  name : after.name? = before.name?
  simple : ∀ type, .simple type ∈ after.typeRefs → ∃ name, index.find? .simpleType name = some type
  complex : ∀ type, .complex type ∈ after.typeRefs → ∃ name, index.find? .complexType name = some type
  ref : ∀ id, after.nodeRef? = some (.resolved id) → ∃ name, index.find? before.kind name = some id

private theorem resolved_type {type : Option TypeRef} (named : ∀ ref ∈ type.toList, ∃ name, ref = .named name) :
    ∀ ref ∈ (resolveOption (TypeRef.resolve index) type).1.toList, ∃ name, ref = index.type name := by
  cases type with
  | none => simp [resolveOption]
  | some type =>
    obtain ⟨name, rfl⟩ := named type (by simp)
    simp only [resolveOption, TypeRef.resolve, Option.toList_some, List.mem_singleton, forall_eq]
    exact ⟨name, rfl⟩

private theorem resolved_ref {kind : Kind} {ref : Option NodeRef}
    (named : ∀ found, ref = some found → ∃ name, found = .named name)
    (resolved : (resolveOption (NodeRef.resolve index kind) ref).1 = some (.resolved id)) :
    ∃ name, index.find? kind name = some id := by
  cases ref with
  | none => simp [resolveOption] at resolved
  | some ref =>
    obtain ⟨name, rfl⟩ := named ref rfl
    simp only [resolveOption, NodeRef.resolve] at resolved
    cases found : index.find? kind name with
    | none => simp [found] at resolved
    | some other =>
      simp only [found, Option.some.injEq, NodeRef.resolved.injEq] at resolved
      exact ⟨name, resolved ▸ found⟩

theorem Construct.resolve_isResolved {construct : Construct} (unresolved : Reading.Unresolved construct) :
    IsResolved index construct (construct.resolve index).1 := by
  have types {refs : List TypeRef} (meant : ∀ ref ∈ refs, ∃ name, ref = index.type name) :
      (∀ type, .simple type ∈ refs → ∃ name, index.find? .simpleType name = some type) ∧
        ∀ type, .complex type ∈ refs → ∃ name, index.find? .complexType name = some type := by
    constructor
    · intro type member
      obtain ⟨name, same⟩ := meant _ member
      exact ⟨name, Index.type_cases.1 type same.symm⟩
    · intro type member
      obtain ⟨name, same⟩ := meant _ member
      exact ⟨name, Index.type_cases.2 type same.symm⟩
  obtain ⟨named, namedRef⟩ := unresolved
  cases construct with
  | element decl | attr decl =>
    have meant := types (@resolved_type index _ named)
    exact ⟨rfl, rfl, meant.1, meant.2, fun _ => resolved_ref namedRef⟩
  | attrGroup _ ref | group _ ref _ =>
    exact ⟨rfl, rfl, by simp [resolve, typeRefs], by simp [resolve, typeRefs], fun _ => resolved_ref namedRef⟩
  | restriction base _ | extension base | list base =>
    have meant := types (@resolved_type index _ named)
    exact ⟨rfl, rfl, meant.1, meant.2, by simp [resolve, nodeRef?]⟩
  | union members =>
    have resolved : ∀ ref ∈ (members.map (TypeRef.resolve index)).map Prod.fst, ∃ name, ref = index.type name := by
      intro ref member
      simp only [List.map_map, List.mem_map, Function.comp_apply] at member
      obtain ⟨stated, inside, rfl⟩ := member
      obtain ⟨name, rfl⟩ := named stated inside
      exact ⟨name, rfl⟩
    have meant := types resolved
    exact ⟨rfl, rfl, meant.1, meant.2, by simp [resolve, nodeRef?]⟩
  | _ => exact ⟨rfl, rfl, by simp [resolve, typeRefs], by simp [resolve, typeRefs], by simp [resolve, nodeRef?]⟩

theorem Nodes.resolve_get (nodes : Nodes) (id : NodeId) :
    nodes.resolve.nodes.get id = ((nodes.get id).resolve (Index.ofNodes nodes).1).1 := by
  simp only [Nodes.resolve, Nodes.get, Array.getD_eq_getD_getElem?, Array.getElem?_map]
  cases nodes[id]? <;> rfl

theorem Nodes.resolve_formed (placed : ∀ id, nodes.Placed id)
    (unresolved : ∀ id, Reading.Unresolved (nodes.get id).construct) : nodes.resolve.nodes.Formed := by
  have size : nodes.resolve.nodes.size = nodes.size := by simp [Nodes.resolve]
  have resolved (id : NodeId) :
      IsResolved (Index.ofNodes nodes).1 (nodes.get id).construct (nodes.resolve.nodes.get id).construct := by
    rw [resolve_get]
    exact Construct.resolve_isResolved (unresolved id)
  have kind (id : NodeId) : nodes.resolve.nodes.kindOf id = nodes.kindOf id := (resolved id).kind
  have name (id : NodeId) : (nodes.resolve.nodes.get id).name? = (nodes.get id).name? := (resolved id).name
  have children (id : NodeId) : (nodes.resolve.nodes.get id).children = (nodes.get id).children := by
    rw [resolve_get]; rfl
  have parent (id : NodeId) : (nodes.resolve.nodes.get id).parent = (nodes.get id).parent := by
    rw [resolve_get]; rfl
  have declared {wanted : Kind} {other : NodeId}
    (found : ∃ name, (Index.ofNodes nodes).1.find? wanted name = some other) :
      other < nodes.resolve.nodes.size ∧ nodes.resolve.nodes.kindOf other = wanted ∧
        (nodes.resolve.nodes.get other).name?.isSome := by
    obtain ⟨_, found⟩ := found
    rw [size, kind, name]
    exact Index.find?_sound (Index.ofNodes_sound nodes) found
  constructor
  · intro id
    obtain ⟨after, inside, same, up, particle⟩ := placed id
    constructor <;> simpa only [children, size, kind, parent]
  · exact fun id type named => declared ((resolved id).simple type named)
  · exact fun id type named => declared ((resolved id).complex type named)
  · intro id other named
    rw [kind id]
    exact declared ((resolved id).ref other named)

end Resolution

namespace Schema

/-- A schema that can be read from a document. -/
def Loaded (schema : Schema) : Prop :=
  ∃ limits document links, (load limits document links).result = .ok schema

/-- The nodes of a loaded schema are those that were read, with their references resolved. -/
theorem Loaded.read {schema : Schema} (loaded : schema.Loaded) :
    ∃ nodes, schema.nodes = nodes.resolve.nodes ∧ Reading.IsRead #[] nodes none .schema schema.root := by
  obtain ⟨limits, source, links, loaded⟩ := loaded
  unfold load at loaded
  rcases outcome : (Reading.document limits source).run { links } with ⟨failed | root, state⟩
  · simp [outcome] at loaded
  · simp only [outcome, Except.ok.injEq] at loaded
    exact ⟨state.nodes, by rw [← loaded]; rfl, by rw [← loaded]; exact Reading.document_isRead outcome⟩

theorem unresolved_of_read {nodes : Nodes} {kind : Kind} {root : NodeId}
    (read : Reading.IsRead #[] nodes none kind root) (id : NodeId) :
    Reading.Unresolved (nodes.get id).construct := by
  rcases Nat.lt_or_ge id nodes.size with inside | outside
  · exact read.grown.unresolved id (Nat.zero_le _) inside
  · have absent := Nodes.get_outside outside
    rw [absent]
    exact ⟨fun ref member => (nomatch member), fun ref found => (nomatch found)⟩

theorem Loaded.formed {schema : Schema} (loaded : schema.Loaded) : schema.nodes.Formed := by
  obtain ⟨nodes, same, read⟩ := loaded.read
  rw [same]
  refine Nodes.resolve_formed (fun id => ?_) (unresolved_of_read read)
  rcases Nat.lt_or_ge id nodes.size with inside | outside
  · exact read.grown.placed id (Nat.zero_le _) inside
  · have absent := Nodes.get_outside outside
    have bare : (default : Node).children = [] := rfl
    constructor <;> simp [absent, bare]

theorem Loaded.root_lt {schema : Schema} (loaded : schema.Loaded) : schema.root < schema.nodes.size := by
  obtain ⟨nodes, same, read⟩ := loaded.read
  rw [same]
  simpa [Nodes.resolve] using read.inside

theorem Loaded.root_kind {schema : Schema} (loaded : schema.Loaded) : schema.nodes.kindOf schema.root = .schema := by
  obtain ⟨nodes, same, read⟩ := loaded.read
  have kept := (@Construct.resolve_isResolved (Index.ofNodes nodes).1 _
    (read.grown.unresolved schema.root (Nat.zero_le _) read.inside)).kind
  rw [same, Nodes.kindOf, Nodes.resolve_get]
  exact kept.trans read.kind

theorem Loaded.root_isGroup {schema : Schema} (loaded : schema.Loaded) : (schema.nodes.kindOf schema.root).isGroup := by
  rw [loaded.root_kind]
  rfl

end Schema

/-- Elements `z` and `a` hold the members of one group, and `a` is a member of it. -/
def Document.entwined : Document where
  elements := #[
    { name := "schema", children := #[1, 4, 7] },
    { name := "element", attributes := [("name", "z")], children := #[2], parent := some 0 },
    { name := "complexType", children := #[3], parent := some 1 },
    { name := "group", attributes := [("ref", "g")], parent := some 2 },
    { name := "element", attributes := [("name", "a")], children := #[5], parent := some 0 },
    { name := "complexType", children := #[6], parent := some 4 },
    { name := "group", attributes := [("ref", "g")], parent := some 5 },
    { name := "group", attributes := [("name", "g")], children := #[8], parent := some 0 },
    { name := "choice", children := #[9, 10], parent := some 7 },
    { name := "element", attributes := [("ref", "a"), ("maxOccurs", "unbounded")], parent := some 8 },
    { name := "element", attributes := [("name", "b")], parent := some 8 }]
  root := some 0

namespace Schema

def entwined : Schema where
  nodes := #[
    { construct := .schema none, children := [⟨.element, 1⟩, ⟨.element, 4⟩, ⟨.group, 7⟩] },
    { parent := some 0, construct := .element { name := some "z" }, children := [⟨.complexType, 2⟩] },
    { parent := some 1, construct := .complexType none false false, children := [⟨.group, 3⟩] },
    { parent := some 2, construct := .group none (some (.resolved 7)) {} },
    { parent := some 0, construct := .element { name := some "a" }, children := [⟨.complexType, 5⟩] },
    { parent := some 4, construct := .complexType none false false, children := [⟨.group, 6⟩] },
    { parent := some 5, construct := .group none (some (.resolved 7)) {} },
    { parent := some 0, construct := .group (some "g") none {}, children := [⟨.choice, 8⟩] },
    { parent := some 7, construct := .choice {}, children := [⟨.element, 9⟩, ⟨.element, 10⟩] },
    { parent := some 8, construct := .element { ref := some (.resolved 4), occurs := { max := none } } },
    { parent := some 8, construct := .element { name := some "b" } }]
  root := 0
  declarations := [("z", 1), ("a", 4), ("b", 10)]

set_option maxRecDepth 8000 in
theorem entwined_loaded : entwined.Loaded :=
  ⟨{}, .entwined, Array.replicate 11 none, by cbv⟩

/-- Whatever holds of the nodes of the schema and of one that states nothing holds of all. -/
theorem entwined_nodes {property : Node → Prop} (known : ∀ id < 11, property (entwined.nodes.get id))
    (absent : property default) (id : NodeId) : property (entwined.nodes.get id) := by
  rcases Nat.lt_or_ge id 11 with inside | outside
  · exact known id inside
  · have none : entwined.nodes.get id = default := Nodes.get_outside outside
    rw [none]
    exact absent

theorem entwined_top : entwined.nodes.TypesOnTop := by
  intro id isType name
  have unnamed := @entwined_nodes (fun node => ¬(node.kind.isType ∧ node.name?.isSome)) (by decide) (by decide) id
  exact absurd ⟨isType, name⟩ unnamed

end Schema

end SchemaClasses
