import SchemaClasses.Builder.Reach
import SchemaClasses.Proofs.Builder.Changes

/-! Searches that follow the links of a number as soon as they meet it. What they list does not depend on how they are
carried out: by recursion, or with a list of numbers that are pending. -/

namespace SchemaClasses

/-- A search by recursion. Of the numbers at hand it lists those that were not found before, each ahead of what
its links lead to, and all of that ahead of the next number at hand. -/
inductive Explores (links : Nat → List Nat) : List Nat → List Nat → List Nat → Prop where
  | done {found} : Explores links found [] []
  | again {found id rest listed} (known : id ∈ found) (others : Explores links found rest listed) :
      Explores links found (id :: rest) listed
  | first {found id rest below later} (new : id ∉ found) (inner : Explores links (found ++ [id]) (links id) below)
      (others : Explores links (found ++ id :: below) rest later) :
      Explores links found (id :: rest) (id :: below ++ later)

namespace Explores
variable {links : Nat → List Nat} {found pending listed : List Nat}

theorem unique {other : List Nat} (one : Explores links found pending listed)
    (two : Explores links found pending other) :
    listed = other := by
  induction one generalizing other with
  | done =>
    cases two
    rfl
  | again known _ ih =>
    cases two with
    | again _ others => exact ih others
    | first new _ _ => exact absurd known new
  | first new _ _ inside behind =>
    cases two with
    | again known _ => exact absurd known new
    | first _ inner others =>
      obtain rfl := inside inner
      rw [behind others]

theorem append {first second front back : List Nat} (begins : Explores links found first front)
    (ends : Explores links (found ++ front) second back) : Explores links found (first ++ second) (front ++ back) := by
  induction begins with
  | done => rwa [List.append_nil] at ends
  | again known _ ih => exact .again known (ih ends)
  | @first found id rest below later new inner _ _ ih =>
    rw [List.append_assoc (id :: below)]
    refine .first new inner (ih ?_)
    rwa [List.append_assoc]

/-- Numbers at hand can be searched in two parts, the later ones after all that the earlier ones lead to. -/
theorem split {first second : List Nat} (explores : Explores links found (first ++ second) listed) :
    ∃ front back, Explores links found first front ∧ Explores links (found ++ front) second back ∧
      listed = front ++ back := by
  induction first generalizing found listed with
  | nil => exact ⟨[], listed, .done, by rwa [List.append_nil], rfl⟩
  | cons id first ih =>
    cases explores with
    | again known others =>
      obtain ⟨front, back, begins, ends, rfl⟩ := ih others
      exact ⟨front, back, .again known begins, ends, rfl⟩
    | @first _ _ _ below _ new inner others =>
      obtain ⟨front, back, begins, ends, rfl⟩ := ih others
      refine ⟨id :: below ++ front, back, .first new inner begins, ?_, (List.append_assoc _ _ _).symm⟩
      rwa [← List.append_assoc]

theorem nodup (explores : Explores links found pending listed) : listed.Nodup ∧ ∀ id ∈ listed, id ∉ found := by
  induction explores with
  | done => exact ⟨List.nodup_nil, List.forall_mem_nil _⟩
  | again _ _ ih => exact ih
  | @first found id rest below later new _ _ inside behind =>
    obtain ⟨distinct, fresh⟩ := inside
    obtain ⟨apart, others⟩ := behind
    simp only [List.mem_append, List.mem_cons, List.not_mem_nil, or_false, not_or] at fresh others
    refine ⟨List.nodup_append.mpr ⟨List.nodup_cons.mpr ⟨fun below => (fresh id below).2 rfl, distinct⟩, apart, ?_⟩, ?_⟩
    · rintro one first _ last rfl
      exact (List.mem_cons.mp first).elim (others one last).2.1 (others one last).2.2
    · intro next member
      rcases List.mem_append.mp member with first | last
      · rcases List.mem_cons.mp first with rfl | below
        · exact new
        · exact (fresh next below).1
      · exact (others next last).1

theorem finds (explores : Explores links found pending listed) : ∀ id ∈ pending, id ∈ found ∨ id ∈ listed := by
  induction explores with
  | done => exact List.forall_mem_nil _
  | again known _ ih => exact List.forall_mem_cons.mpr ⟨Or.inl known, ih⟩
  | first _ _ _ _ ih =>
    refine List.forall_mem_cons.mpr ⟨Or.inr List.mem_cons_self, fun next member => ?_⟩
    rcases ih next member with known | last
    · exact (List.mem_append.mp known).imp_right (List.mem_append_left _)
    · exact Or.inr (List.mem_append_right _ last)

theorem closed (explores : Explores links found pending listed) :
    ∀ id ∈ listed, ∀ next ∈ links id, next ∈ found ∨ next ∈ listed := by
  induction explores with
  | done => exact List.forall_mem_nil _
  | again _ _ ih => exact ih
  | @first found id rest below later _ inner _ inside behind =>
    have known {next : Nat} (member : next ∈ found ++ [id] ∨ next ∈ below) :
        next ∈ found ∨ next ∈ id :: below ++ later := by
      simp only [List.mem_append, List.mem_cons, List.not_mem_nil, or_false] at member ⊢
      tauto
    intro model member next linked
    rcases List.mem_append.mp member with first | last
    · rcases List.mem_cons.mp first with rfl | lower
      · exact known (inner.finds next linked)
      · exact known (inside model lower next linked)
    · rcases behind model last next linked with earlier | last
      · exact (List.mem_append.mp earlier).imp_right (List.mem_append_left _)
      · exact Or.inr (List.mem_append_right _ last)

/-- What is listed is at hand from the start, or something that is listed ahead of it links to it. -/
theorem linked {before after : List Nat} {id : Nat} (explores : Explores links found pending listed)
    (place : listed = before ++ id :: after) : id ∈ pending ∨ ∃ earlier ∈ before, id ∈ links earlier := by
  induction explores generalizing before after with
  | done => simp at place
  | again _ _ ih => exact (ih place).imp_left (List.mem_cons_of_mem _)
  | @first found head rest below later _ _ _ inside behind =>
    cases before with
    | nil =>
      rw [List.cons_append, List.nil_append, List.cons.injEq] at place
      exact Or.inl (List.mem_cons.mpr (Or.inl place.1.symm))
    | cons other before =>
      rw [List.cons_append, List.cons_append, List.cons.injEq] at place
      obtain ⟨rfl, place⟩ := place
      rcases List.append_eq_append_iff.mp place with ⟨middle, rfl, rest⟩ | ⟨_ | ⟨next, middle⟩, rfl, rest⟩
      · rcases behind rest with here | ⟨earlier, member, link⟩
        · exact Or.inl (List.mem_cons_of_mem _ here)
        · exact Or.inr ⟨earlier, List.mem_cons_of_mem _ (List.mem_append_right _ member), link⟩
      · rcases @behind [] _ rest.symm with here | ⟨_, none, _⟩
        · exact Or.inl (List.mem_cons_of_mem _ here)
        · cases none
      · obtain ⟨rfl, _⟩ := List.cons.inj rest
        rcases inside rfl with link | ⟨earlier, member, link⟩
        · exact Or.inr ⟨head, List.mem_cons_self, link⟩
        · exact Or.inr ⟨earlier, List.mem_cons_of_mem _ member, link⟩

/-- What holds of the numbers at hand and is handed on along links holds of all that is listed. -/
theorem invariant {property : Nat → Prop} (explores : Explores links found pending listed)
    (start : ∀ id ∈ pending, property id) (handed : ∀ id, property id → ∀ next ∈ links id, property next) :
    ∀ id ∈ listed, property id := by
  induction explores with
  | done => exact List.forall_mem_nil _
  | again _ _ ih => exact ih (List.forall_mem_cons.mp start).2
  | first _ _ _ inside behind =>
    obtain ⟨holds, others⟩ := List.forall_mem_cons.mp start
    exact List.forall_mem_append.mpr ⟨List.forall_mem_cons.mpr ⟨holds, inside (handed _ holds)⟩, behind others⟩

theorem congr {property : Nat → Prop} {other : Nat → List Nat} (explores : Explores links found pending listed)
    (start : ∀ id ∈ pending, property id) (handed : ∀ id, property id → ∀ next ∈ links id, property next)
    (same : ∀ id, property id → other id = links id) : Explores other found pending listed := by
  induction explores with
  | done => exact .done
  | again known _ ih => exact .again known (ih (List.forall_mem_cons.mp start).2)
  | first new _ _ inside behind =>
    obtain ⟨holds, others⟩ := List.forall_mem_cons.mp start
    refine .first new ?_ (behind others)
    rw [same _ holds]
    exact inside (handed _ holds)

/-- A walk adds to what was found what the search by recursion lists. -/
theorem of_walk {bound : Nat} (ends : ∀ id, bound ≤ id → links id = []) (pending : List Nat) (found : Array Nat) :
    ∃ listed, Explores links found.toList pending listed ∧
      (walk links bound pending found).toList = found.toList ++ listed := by
  induction pending, found using walk.induct links bound with
  | case1 found => exact ⟨[], .done, by rw [walk, List.append_nil]⟩
  | case2 id pending found present ih =>
    obtain ⟨listed, explores, same⟩ := ih
    refine ⟨listed, .again (by simpa using present) explores, ?_⟩
    rw [walk, if_pos present, same]
  | case3 id pending found absent inside ih =>
    -- The walk has the links of the number and the rest in one list; the search takes them one after the other.
    obtain ⟨listed, explores, same⟩ := ih
    rw [Array.toList_push] at explores same
    obtain ⟨below, later, inner, others, rfl⟩ := explores.split
    rw [List.append_assoc, List.singleton_append] at others
    refine ⟨id :: below ++ later, .first (by simpa using absent) inner others, ?_⟩
    rw [walk, if_neg absent, if_pos inside, same, List.append_assoc]
    rfl
  | case4 id pending found absent outside ih =>
    obtain ⟨listed, explores, same⟩ := ih
    rw [Array.toList_push] at explores same
    have leaf : Explores links (found.toList ++ [id]) (links id) [] := by
      rw [ends id (Nat.le_of_not_lt outside)]
      exact .done
    refine ⟨id :: listed, .first (by simpa using absent) leaf explores, ?_⟩
    rw [walk, if_neg absent, if_neg outside, same, List.append_assoc]
    rfl

end Explores
end SchemaClasses

namespace SchemaClasses.Builders

def Reaches (builders : Builders) : BuilderId → BuilderId → Prop :=
  Relation.ReflTransGen fun id next => next ∈ builders.links id

/-- No link leads out of the store. -/
def InRange (builders : Builders) : Prop :=
  ∀ id < builders.size, ∀ next ∈ builders.links id, next < builders.size

theorem mem_links {builders : Builders} {id next : BuilderId} :
    next ∈ builders.links id ↔
      (builders.get id).base = some next ∨ (builders.get id).item = some next ∨ next ∈ (builders.get id).fields := by
  simp [links]

/-- The links of a builder in the order in which copying follows them. -/
def copyLinks (builders : Builders) (id : BuilderId) : List BuilderId :=
  let builder := builders.get id
  builder.item.toList ++ builder.base.toList ++ builder.fields

theorem mem_copyLinks {builders : Builders} {id next : BuilderId} :
    next ∈ builders.copyLinks id ↔ next ∈ builders.links id := by
  simp only [mem_links, copyLinks, List.mem_append, Option.mem_toList, or_assoc]
  exact or_left_comm

theorem InRange.reaches {builders : Builders} (range : builders.InRange) {id next : BuilderId}
    (reached : builders.Reaches id next) (inside : id < builders.size) : next < builders.size := by
  induction reached with
  | refl => exact inside
  | tail _ linked ih => exact range _ ih _ linked

theorem links_outside {builders : Builders} {id : BuilderId} (outside : builders.size ≤ id) :
    builders.links id = [] := by
  rw [links, get_outside outside]
  rfl

theorem reachable_explores (builders : Builders) (root : BuilderId) :
    Explores builders.links [] (builders.links root) (builders.reachable root) := by
  obtain ⟨listed, explores, same⟩ := Explores.of_walk (fun _ => @links_outside builders _) (builders.links root) #[]
  have all : builders.reachable root = listed := same
  rw [all]
  exact explores

end SchemaClasses.Builders
