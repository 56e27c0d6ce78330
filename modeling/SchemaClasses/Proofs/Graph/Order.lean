import SchemaClasses.Graph.Basic
import Mathlib.Data.List.Flatten

/-! The order in which objects are built: those of a tree one after the other, and children first. -/

namespace SchemaClasses.Graph
variable {graph : Graph} {known other order first rest : List ObjectId}

/-- Objects that come after their children, where some are known to begin with. -/
def Ready (graph : Graph) : List ObjectId → List ObjectId → Prop
  | _, [] => True
  | known, id :: order => (∀ child ∈ graph.children id, child ∈ known) ∧ graph.Ready (id :: known) order

namespace Ready

theorem mono (ready : graph.Ready known order) (more : known ⊆ other) : graph.Ready other order := by
  induction order generalizing known other with
  | nil => trivial
  | cons id order ih =>
    refine ⟨fun child member => more (ready.1 child member), ih ready.2 ?_⟩
    exact List.cons_subset_cons id more

theorem append (ready : graph.Ready known first) (further : graph.Ready (first ++ known) rest) :
    graph.Ready known (first ++ rest) := by
  induction first generalizing known with
  | nil => exact further
  | cons id first ih => exact ⟨ready.1, ih ready.2 (further.mono List.perm_middle.symm.subset)⟩

theorem left (ready : graph.Ready known (first ++ rest)) : graph.Ready known first := by
  induction first generalizing known with
  | nil => trivial
  | cons id first ih => exact ⟨ready.1, ih ready.2⟩

theorem forall_mem (ready : graph.Ready known order) {holds : ObjectId → Prop} (start : ∀ id ∈ known, holds id)
    (step : ∀ id ∈ order, (∀ child ∈ graph.children id, holds child) → holds id) : ∀ id ∈ order, holds id := by
  induction order generalizing known with
  | nil => exact List.forall_mem_nil _
  | cons id order ih =>
    have own : holds id := step id List.mem_cons_self fun child member => start child (ready.1 child member)
    have others := ih ready.2 (List.forall_mem_cons.mpr ⟨own, start⟩) fun id member =>
      step id (List.mem_cons_of_mem _ member)
    exact List.forall_mem_cons.mpr ⟨own, others⟩

end Ready

/-- The objects of a tree: those of the children, one after the other, and then the object itself. -/
def treeOrder (graph : Graph) (id : ObjectId) : List ObjectId :=
  (graph.children id).attach.flatMap (fun child => graph.treeOrder child.val) ++ [id]
  termination_by graph.size - id
  decreasing_by
    exact Nat.sub_lt_sub_left (lt_size_of_mem_children child.property)
      (lt_of_mem_children child.property)

theorem treeOrder_eq (graph : Graph) (id : ObjectId) :
    graph.treeOrder id = (graph.children id).flatMap graph.treeOrder ++ [id] := by
  rw [treeOrder, List.flatMap_def, List.attach_map_val, List.flatMap_def]

/-- The walk with a stack lists the tree of an object that it enters. -/
theorem postOrderFrom_enter (graph : Graph) (id : ObjectId) (pending : List Visit) :
    graph.postOrderFrom (.enter id :: pending) = graph.treeOrder id ++ graph.postOrderFrom pending := by
  have all (ids : List ObjectId) (below : ids ⊆ graph.children id) (pending : List Visit) :
      graph.postOrderFrom (ids.map .enter ++ pending) = ids.flatMap graph.treeOrder ++ graph.postOrderFrom pending := by
    induction ids with
    | nil => rfl
    | cons child ids ih =>
      have member : child ∈ graph.children id := below List.mem_cons_self
      rw [List.map_cons, List.cons_append, postOrderFrom_enter graph child, ih (List.subset_of_cons_subset below),
        List.flatMap_cons, List.append_assoc]
  rw [postOrderFrom, all _ (List.Subset.refl _), postOrderFrom, treeOrder_eq, List.append_assoc, List.singleton_append]
termination_by graph.size - id
decreasing_by
  exact Nat.sub_lt_sub_left (lt_size_of_mem_children member) (lt_of_mem_children member)

theorem postOrder_eq {root : ObjectId} (first : graph.root? = some root) : graph.postOrder = graph.treeOrder root := by
  rw [postOrder, first]
  dsimp only
  rw [postOrderFrom_enter, postOrderFrom, List.append_nil]

theorem ready_treeOrder (graph : Graph) (id : ObjectId) (known : List ObjectId) :
    graph.Ready known (graph.treeOrder id) := by
  have all (ids : List ObjectId) (below : ids ⊆ graph.children id) (known : List ObjectId) :
      graph.Ready known (ids.flatMap graph.treeOrder) := by
    induction ids generalizing known with
    | nil => trivial
    | cons child ids ih =>
      have member : child ∈ graph.children id := below List.mem_cons_self
      exact (ready_treeOrder graph child known).append (ih (List.subset_of_cons_subset below) _)
  rw [treeOrder_eq]
  refine (all _ (List.Subset.refl _) known).append ⟨fun child member => List.mem_append_left _ ?_, trivial⟩
  refine List.mem_flatMap.mpr ⟨child, member, ?_⟩
  rw [treeOrder_eq]
  exact List.mem_append_right _ (List.mem_singleton_self child)
termination_by graph.size - id
decreasing_by
  exact Nat.sub_lt_sub_left (lt_size_of_mem_children member) (lt_of_mem_children member)

theorem ready_postOrder (graph : Graph) : graph.Ready [] graph.postOrder := by
  cases first : graph.root? with
  | none =>
    rw [postOrder, first]
    trivial
  | some root =>
    rw [postOrder_eq first]
    exact ready_treeOrder graph root []

end SchemaClasses.Graph
