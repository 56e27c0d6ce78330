import SchemaClasses.Proofs.Builder.Exploration
import SchemaClasses.Schema.Classes

/-! What can be reached from a builder is listed in the order of a search by recursion. The closure of some
builders has them and all that they lead to. -/

namespace SchemaClasses.Builders

variable {builders : Builders} {id next root : BuilderId} {found roots : List BuilderId}

theorem reachable_of_link (linked : next ∈ builders.links root) : next ∈ builders.reachable root :=
  ((builders.reachable_explores root).finds next linked).resolve_left List.not_mem_nil

theorem reachable_closed (member : id ∈ builders.reachable root) (linked : next ∈ builders.links id) :
    next ∈ builders.reachable root :=
  ((builders.reachable_explores root).closed id member next linked).resolve_left List.not_mem_nil

theorem mem_reachable_iff :
    id ∈ builders.reachable root ↔ Relation.TransGen (fun id next => next ∈ builders.links id) root id := by
  constructor
  · have reached : ∀ id ∈ builders.reachable root, Relation.TransGen (fun id next => next ∈
      builders.links id) root id :=
      (builders.reachable_explores root).invariant (fun _ linked => .single linked) fun _ reached _ linked =>
        reached.tail linked
    exact reached id
  · intro reached
    induction reached with
    | single linked => exact reachable_of_link linked
    | tail _ linked ih => exact reachable_closed ih linked

/-- What a builder leads to is listed once each, in the order of the search by recursion: the base, the item and
the fields of a builder, each with all that it leads to before the next. Only what is linked from the root
itself is listed without something that links to it ahead of it. The root is listed like any other where a cycle
leads back to it. -/
theorem reachable_preorder (builders : Builders) (root : BuilderId) :
    (builders.reachable root).Nodup ∧
      (∀ id, id ∈ builders.reachable root ↔ Relation.TransGen (fun id next => next ∈ builders.links id) root id) ∧
      (∀ listed, Explores builders.links [] (builders.links root) listed ↔ listed = builders.reachable root) ∧
      ∀ before id after, builders.reachable root = before ++ id :: after →
        id ∈ builders.links root ∨ ∃ earlier ∈ before, id ∈ builders.links earlier := by
  have explores := builders.reachable_explores root
  refine ⟨explores.nodup.1, fun id => mem_reachable_iff, fun listed => ?_, ?_⟩
  · exact ⟨fun found => found.unique explores, fun same => same ▸ explores⟩
  · exact fun before id after place => explores.linked place

def Closed (builders : Builders) (ids : List BuilderId) : Prop :=
  ∀ id ∈ ids, ∀ next ∈ builders.links id, next ∈ ids

private theorem closed_add (closed : builders.Closed found) :
    builders.Closed (found ++ root :: (builders.reachable root).filter fun id => id != root && !found.contains id) := by
  have among {next : BuilderId} (reached : next ∈ builders.reachable root) :
      next ∈ found ++ root :: (builders.reachable root).filter fun id => id != root && !found.contains id := by
    by_cases old : next ∈ found
    · exact List.mem_append_left _ old
    · by_cases same : next = root
      · simp [same]
      · simp [reached, old, same]
  intro id member next linked
  rcases List.mem_append.mp member with old | added
  · exact List.mem_append_left _ (closed id old next linked)
  · rcases List.mem_cons.mp added with rfl | reached
    · exact among (reachable_of_link linked)
    · exact among (reachable_closed (List.mem_of_mem_filter reached) linked)

theorem closureFrom_keeps (member : id ∈ found) : id ∈ builders.closureFrom found roots := by
  induction roots generalizing found with
  | nil => exact member
  | cons root rest ih =>
    rw [closureFrom]
    split
    · exact ih member
    · exact ih (List.mem_append_left _ member)

theorem closureFrom_roots (member : id ∈ roots) : id ∈ builders.closureFrom found roots := by
  induction roots generalizing found with
  | nil => cases member
  | cons root rest ih =>
    rw [closureFrom]
    rcases List.mem_cons.mp member with rfl | later
    · split
      next present => exact closureFrom_keeps (by simpa using present)
      next => exact closureFrom_keeps (by simp)
    · split
      · exact ih later
      · exact ih later

theorem closureFrom_closed (closed : builders.Closed found) : builders.Closed (builders.closureFrom found roots) := by
  induction roots generalizing found with
  | nil => exact closed
  | cons root rest ih =>
    rw [closureFrom]
    split
    · exact ih closed
    · exact ih (closed_add closed)

theorem closure_closed : builders.Closed (builders.closure roots) :=
  closureFrom_closed fun _ member => absurd member List.not_mem_nil

theorem mem_closure_of_root (member : id ∈ roots) : id ∈ builders.closure roots :=
  closureFrom_roots member

/-- What holds of the roots and is handed on along links holds of all that they lead to. -/
theorem closure_invariant {property : BuilderId → Prop} (start : ∀ root ∈ roots, property root)
    (handed : ∀ id, property id → ∀ next ∈ builders.links id, property next) :
    ∀ id ∈ builders.closure roots, property id := by
  suffices all : ∀ found : List BuilderId, (∀ id ∈ found, property id) →
    ∀ id ∈ builders.closureFrom found roots, property id from
    all [] (List.forall_mem_nil _)
  induction roots with
  | nil => exact fun _ known => known
  | cons root rest ih =>
    intro found known
    obtain ⟨first, others⟩ := List.forall_mem_cons.mp start
    have reached : ∀ id ∈ builders.reachable root, property id :=
      (builders.reachable_explores root).invariant (handed root first) handed
    rw [closureFrom]
    split
    · exact ih others found known
    · refine ih others _ (List.forall_mem_append.mpr ⟨known, List.forall_mem_cons.mpr ⟨first, fun id member => ?_⟩⟩)
      exact reached id (List.mem_of_mem_filter member)

end SchemaClasses.Builders
