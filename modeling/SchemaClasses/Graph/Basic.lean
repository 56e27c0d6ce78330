import SchemaClasses.Instance

/-! Object graphs: descriptions of the instances to build, one for each element of a document, and the
order in which they are built. An object is added under one that is there already, so objects form
trees, and children have greater numbers than their parents. -/

namespace SchemaClasses

abbrev ObjectId := Nat

def ObjectId.text (id : ObjectId) : String :=
  "ob" ++ toString id

structure Object where
  tagName : String
  content : Option String := none
  attributes : Entries String := []
  /-- The instance built from the object. -/
  rendered : Option Instance := none
  children : Array ObjectId := #[]
  parent : Option ObjectId := none

/-- Every child stands behind its parent. -/
def Object.Ordered (objects : Array Object) : Prop :=
  ∀ (id : ObjectId) (object : Object), objects[id]? = some object →
    ∀ child ∈ object.children, id < child

structure Graph where
  objects : Array Object := #[]
  ordered : Object.Ordered objects := by intro id object found; simp at found

namespace Graph

def size (graph : Graph) : Nat :=
  graph.objects.size

def get? (graph : Graph) (id : ObjectId) : Option Object :=
  graph.objects[id]?

def children (graph : Graph) (id : ObjectId) : List ObjectId :=
  match graph.get? id with
  | some object => object.children.toList
  | none => []

/-- The object from which the graph is built: the first that was added without a parent. -/
def root? (graph : Graph) : Option ObjectId :=
  graph.objects.findIdx? (·.parent.isNone)

theorem ordered_modify {objects : Array Object} (ordered : Object.Ordered objects)
    (id : ObjectId) (f : Object → Object)
    (keeps : ∀ object, ∀ child ∈ (f object).children, child ∈ object.children ∨ id < child) :
    Object.Ordered (objects.modify id f) := by
  intro i object found child member
  rw [Array.getElem?_modify] at found
  split at found
  · next same =>
    obtain ⟨old, present, rfl⟩ := Option.map_eq_some_iff.mp found
    rcases keeps old child member with before | after
    · exact ordered i old present child before
    · exact same ▸ after
  · exact ordered i object found child member

theorem ordered_push {objects : Array Object} (ordered : Object.Ordered objects) (object : Object)
    (childless : object.children = #[]) : Object.Ordered (objects.push object) := by
  intro i found present child member
  rw [Array.getElem?_push] at present
  split at present
  · cases present; simp [childless] at member
  · exact ordered i found present child member

def modify (graph : Graph) (id : ObjectId) (f : Object → Object)
    (keeps : ∀ object, (f object).children = object.children := by intro; rfl) : Graph where
  objects := graph.objects.modify id f
  ordered := ordered_modify graph.ordered id f fun object _ member => .inl (keeps object ▸ member)

def setContent (graph : Graph) (id : ObjectId) (content : Option String) : Graph :=
  graph.modify id ({ · with content })

def setAttribute (graph : Graph) (id : ObjectId) (name value : String) : Graph :=
  graph.modify id fun object => { object with attributes := object.attributes.insert name value }

def setRendered (graph : Graph) (id : ObjectId) (rendered : Option Instance) : Graph :=
  graph.modify id ({ · with rendered })

/-- Makes the object to be added next a child of its parent, which has to be there. -/
def adopt (graph : Graph) (parent : Option ObjectId) : Graph :=
  match parent with
  | none => graph
  | some parent =>
    if inside : parent < graph.size then {
      objects := graph.objects.modify parent fun object =>
        { object with children := object.children.push graph.size }
      ordered := ordered_modify graph.ordered parent _ fun object child member => by
        rcases Array.mem_push.mp member with before | same
        · exact .inl before
        · exact .inr (same ▸ inside) }
    else graph

def add (graph : Graph) (parent : Option ObjectId) (tagName : String)
    (content : Option String := none) (attributes : Entries String := []) : ObjectId × Graph :=
  (graph.size, {
    objects := (graph.adopt parent).objects.push { tagName, content, attributes, parent }
    ordered := ordered_push (graph.adopt parent).ordered _ rfl })

theorem lt_size_of_mem_children {graph : Graph} {id child : ObjectId}
    (member : child ∈ graph.children id) : id < graph.size := by
  unfold children get? at member
  split at member
  · next object found => exact (Array.getElem?_eq_some_iff.mp found).1
  · cases member

theorem lt_of_mem_children {graph : Graph} {id child : ObjectId}
    (member : child ∈ graph.children id) : id < child := by
  unfold children get? at member
  split at member
  · next object found => exact graph.ordered id object found child (Array.mem_def.mpr member)
  · cases member

def total : List Nat → Nat
  | [] => 0
  | number :: rest => number + total rest

theorem total_append (a b : List Nat) : total (a ++ b) = total a + total b := by
  induction a with
  | nil => exact (Nat.zero_add _).symm
  | cons number rest ih => rw [List.cons_append, total, total, ih, Nat.add_assoc]

def weight (graph : Graph) (id : ObjectId) : Nat :=
  1 + total ((graph.children id).attach.map fun child => graph.weight child.val)
  termination_by graph.size - id
  decreasing_by
    exact Nat.sub_lt_sub_left (lt_size_of_mem_children child.property)
      (lt_of_mem_children child.property)

theorem weight_eq (graph : Graph) (id : ObjectId) :
    graph.weight id = 1 + total ((graph.children id).map graph.weight) := by
  rw [weight, List.attach_map_val]

/-- A step of the walk through a tree: an object gives way to its children and is listed after
them. -/
inductive Visit where
  | enter (id : ObjectId)
  | leave (id : ObjectId)

def Visit.cost (graph : Graph) : Visit → Nat
  | enter id => 2 * graph.weight id
  | leave _ => 1

theorem cost_children (graph : Graph) (id : ObjectId) :
    total (((graph.children id).map Visit.enter).map (Visit.cost graph)) + 1
      < Visit.cost graph (.enter id) := by
  have twice (ids : List ObjectId) :
      total ((ids.map Visit.enter).map (Visit.cost graph)) = 2 * total (ids.map graph.weight) := by
    induction ids with
    | nil => rfl
    | cons id rest ih => simp only [List.map_cons, total, ih, Visit.cost]; omega
  rw [twice, Visit.cost, weight_eq]
  omega

/-- The objects that are left, and the ones to be listed still. -/
def postOrderFrom (graph : Graph) : List Visit → List ObjectId
  | [] => []
  | .leave id :: pending => id :: graph.postOrderFrom pending
  | .enter id :: pending =>
    graph.postOrderFrom ((graph.children id).map .enter ++ .leave id :: pending)
  termination_by visits => total (visits.map (Visit.cost graph))
  decreasing_by
    · simp [total, Visit.cost]
    · have := cost_children graph id
      simp only [List.map_append, List.map_cons, total_append, total, Visit.cost] at *
      omega

/-- The objects of the tree of the root, children before parents. -/
def postOrder (graph : Graph) : List ObjectId :=
  match graph.root? with
  | some root => graph.postOrderFrom [.enter root]
  | none => []

end Graph
end SchemaClasses
