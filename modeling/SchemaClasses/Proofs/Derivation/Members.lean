import SchemaClasses.Proofs.Derivation.Growth

/-! The members of a group are its leaves from left to right, those of the groups in it in their place. A
group inside of itself has none there. What a group is expanded to are the builders of its members. -/

namespace SchemaClasses

namespace Nodes

/-- How many nodes a path leaves out. -/
def outside (nodes : Nodes) (path : List NodeId) : Nat :=
  (List.range nodes.size).countP fun id => !path.contains id

theorem outside_lt {nodes : Nodes} {path : List NodeId} {id : NodeId} (new : ¬(id ∈ path ∨ nodes.size ≤ id)) :
    nodes.outside (id :: path) < nodes.outside path := by
  obtain ⟨new, inside⟩ := not_or.mp new
  exact countP_lt_countP (fun other => by simp) (List.mem_range.mpr (Nat.lt_of_not_le inside))
    (by simpa using new) (by simp)

/-- The nodes whose builders a group stands for, inside of the groups in `path`. -/
def members (nodes : Nodes) (path : List NodeId) (id : NodeId) : List NodeId :=
  if _new : id ∈ path ∨ nodes.size ≤ id then []
  else (nodes.parts id).flatMap fun
    | .leaf leaf => [leaf]
    | .group group => members nodes (id :: path) group
    | .notice _ => []
  termination_by nodes.outside path
  decreasing_by exact outside_lt _new

def partMembers (nodes : Nodes) (path : List NodeId) : Part → List NodeId
  | .leaf leaf => [leaf]
  | .group group => nodes.members path group
  | .notice _ => []

theorem parts_outside {nodes : Nodes} {id : NodeId} (outside : nodes.size ≤ id) : nodes.parts id = [] := by
  have absent := get_outside outside
  simp only [parts, absent]
  rfl

theorem members_of_mem {nodes : Nodes} {path : List NodeId} {id : NodeId} (inside : id ∈ path) :
    nodes.members path id = [] := by
  rw [members, dif_pos (Or.inl inside)]

theorem members_of_not_mem {nodes : Nodes} {path : List NodeId} {id : NodeId} (outside : id ∉ path) :
    nodes.members path id = (nodes.parts id).flatMap (nodes.partMembers (id :: path)) := by
  by_cases within : nodes.size ≤ id
  · rw [members, dif_pos (Or.inr within), parts_outside within, List.flatMap_nil]
  · rw [members, dif_neg (not_or.mpr ⟨outside, within⟩)]
    rfl

end Nodes

def Task.members (nodes : Nodes) : Task → List NodeId
  | .derive id _ => [id]
  | .expand path id => nodes.members path id
  | .part path single => nodes.partMembers path single
  | .parts path several => several.flatMap (nodes.partMembers path)
  | .entry .. | .entries .. => []

/-- The outcome of a task are the builders of its members. -/
theorem Run.fields {nodes : Nodes} {busy : List BuilderId} {task : Task} {stage later : Stage} {outcome : Expansion}
    {made : List Origin} (run : Run nodes busy task stage outcome later made) :
    outcome.fields.map some = (task.members nodes).map later.memo := by
  induction run with
  | known found => simp [Task.members, found]
  | shared new plan run ih => simp [Task.members, Stage.remember]
  | opened new plan start unwrap run ih =>
    obtain ⟨_, ⟨⟩, found⟩ := (Run.opened new plan start unwrap run).answer
    simp [Task.members, found]
  | written | ask | embed | append | finished | next | unresolved | empty => rfl
  | cut within => simp [Task.members, Nodes.members_of_mem within]
  | @expanded busy path id stage content later made outside run ih =>
    have same : (nodes.optioned id later content).fields = content.fields := by
      unfold Nodes.optioned
      split <;> rfl
    rw [same, ih]
    simp only [Task.members, Nodes.members_of_not_mem outside]
  | leaf isGroup listed run ih | group listed run ih => exact ih
  | @more busy path part parts stage content middle contents later first rest run remaining ih others =>
    have own : content.fields.map some = (nodes.partMembers path part).map middle.memo := ih
    have others : contents.fields.map some = (parts.flatMap (nodes.partMembers path)).map later.memo := others
    have kept : (nodes.partMembers path part).map later.memo = (nodes.partMembers path part).map middle.memo := by
      refine List.map_congr_left fun id member => ?_
      have known : middle.memo id ∈ content.fields.map some := own ▸ List.mem_map_of_mem member
      obtain ⟨builder, _, found⟩ := List.mem_map.mp known
      rw [← found, remaining.keeps found.symm]
    simp only [Task.members, List.flatMap_cons, List.map_append, kept, ← own, ← others]
    simp [Expansion.join]

end SchemaClasses
