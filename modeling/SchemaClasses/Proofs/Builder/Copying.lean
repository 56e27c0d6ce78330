import SchemaClasses.Proofs.Builder.Copier

/-! Copying a builder copies the graph that hangs on it: one new builder for each builder that is reached
and was not copied before, with the same links among the copies as among their models. Nothing that was
there changes. -/

namespace SchemaClasses.Builders

/-- A copy differs from its model only in its links, which lead to the copies of what the model links to. -/
structure IsCopy (before after : Builders) (copies : Copies) (id copy : BuilderId) : Prop where
  target : (after.get copy).target = (before.get id).target
  className : (after.get copy).className = (before.get id).className
  fieldTag : (after.get copy).fieldTag = (before.get id).fieldTag
  bag : (after.get copy).bag = (before.get id).bag
  base : (before.get id).base.map (copies.lookup ·) = (after.get copy).base.map some
  item : (before.get id).item.map (copies.lookup ·) = (after.get copy).item.map some
  fields : (before.get id).fields.map (copies.lookup ·) = (after.get copy).fields.map some

/-- What is to be expected of a store and its copies after a copy of `root` is made, where `copies` were
made before. -/
structure IsGraphCopy (before : Builders) (copies : Copies) (root image : BuilderId) (after : Builders)
    (extended : Copies) : Prop where
  image : extended.lookup root = some image
  kept : ∀ id copy, copies.lookup id = some copy → extended.lookup id = some copy
  injective : ∀ first second copy, extended.lookup first = some copy → extended.lookup second = some copy →
    first = second
  total : ∀ id, before.Reaches root id → ∃ copy, extended.lookup id = some copy
  only : ∀ id, copies.lookup id = none → (∃ copy, extended.lookup id = some copy) → before.Reaches root id
  fresh : ∀ copy, (∃ id, copies.lookup id = none ∧ extended.lookup id = some copy) ↔
    before.size ≤ copy ∧ copy < after.size
  grown : after.size = before.size + {id | before.Reaches root id ∧ copies.lookup id = none}.ncard
  faithful : ∀ id copy, extended.lookup id = some copy → IsCopy before after extended id copy
  builders : ∀ id < before.size, after.get id = before.get id
  bags : after.bags = before.bags

/-- The stores and copies that come of copying builders of `original`, one after the other. Copies may
be copied as well. -/
inductive Copied (original : Builders) : Builders → Copies → Prop where
  | none : Copied original original []
  | copy {store : Builders} {copies : Copies} (earlier : Copied original store copies) {root : BuilderId}
      (inside : root < store.size) :
      Copied original (store.copyInto copies root).2.1 (store.copyInto copies root).2.2

theorem lookup_zipIdx {fresh : List BuilderId} {start id copy : Nat} (distinct : fresh.Nodup) :
    (fresh.zipIdx start).lookup id = some copy ↔ start ≤ copy ∧ fresh[copy - start]? = some id := by
  induction fresh generalizing start with
  | nil => simp
  | cons first rest ih =>
    obtain ⟨absent, distinct⟩ := List.nodup_cons.mp distinct
    rw [List.zipIdx_cons, List.lookup_cons]
    by_cases same : id = first
    · subst id
      simp only [beq_self_eq_true, Option.some.injEq]
      constructor
      · rintro rfl
        simp
      · rintro ⟨after, found⟩
        rcases Nat.eq_zero_or_pos (copy - start) with none | some
        · omega
        · obtain ⟨position, shifted⟩ := Nat.exists_eq_succ_of_ne_zero (Nat.ne_of_gt some)
          rw [shifted, List.getElem?_cons_succ] at found
          exact absurd (List.mem_of_getElem? found) absent
    · simp only [beq_eq_false_iff_ne.mpr same, ih distinct]
      constructor
      · rintro ⟨after, found⟩
        have shifted : copy - start = (copy - (start + 1)) + 1 := by omega
        exact ⟨by omega, by rw [shifted, List.getElem?_cons_succ, found]⟩
      · rintro ⟨after, found⟩
        rcases Nat.eq_zero_or_pos (copy - start) with none | some
        · rw [none] at found
          exact absurd (Option.some.inj found).symm same
        · have shifted : copy - start = (copy - (start + 1)) + 1 := by omega
          rw [shifted, List.getElem?_cons_succ] at found
          exact ⟨by omega, found⟩

/-- What earlier copying leaves behind: distinct copies inside the store, of builders whose links lead
only to copied builders. -/
structure Copying (store : Builders) (copies : Copies) : Prop where
  range : store.InRange
  inside : ∀ id copy, copies.lookup id = some copy → id < store.size ∧ copy < store.size
  injective : ∀ first second copy, copies.lookup first = some copy → copies.lookup second = some copy →
    first = second
  closed : ∀ id copy, copies.lookup id = some copy → ∀ next ∈ store.links id, ∃ copy, copies.lookup next = some copy
  faithful : ∀ id copy, copies.lookup id = some copy → IsCopy store store copies id copy

theorem Copying.initial {original : Builders} (range : original.InRange) : Copying original [] where
  range := range
  inside := by simp
  injective := by simp
  closed := by simp
  faithful := by simp

section Uncopied
variable {store : Builders} {copies : Copies} {root id : BuilderId}

section Range
variable (range : store.InRange) (inside : root < store.size)
include range inside

theorem uncopied_nodup : (store.uncopied copies root).Nodup :=
  (uncopied_explores range inside).nodup.1

theorem lookup_of_mem_uncopied (member : id ∈ store.uncopied copies root) : copies.lookup id = none :=
  Copies.lookup_eq_none_iff.mpr ((uncopied_explores range inside).nodup.2 id member)

theorem reaches_of_mem_uncopied (member : id ∈ store.uncopied copies root) : store.Reaches root id := by
  have reached : ∀ id ∈ store.uncopied copies root, store.Reaches root id :=
    (uncopied_explores range inside).invariant (by simp [Reaches, Relation.ReflTransGen.refl]) fun _ reached _ linked =>
      reached.tail (mem_copyLinks.mp linked)
  exact reached id member

theorem uncopied_lt (member : id ∈ store.uncopied copies root) : id < store.size :=
  range.reaches (reaches_of_mem_uncopied range inside member) inside

theorem copied_or_uncopied_of_link {model : BuilderId} (member : model ∈ store.uncopied copies root)
    (linked : id ∈ store.links model) : (∃ copy, copies.lookup id = some copy) ∨ id ∈ store.uncopied copies root := by
  refine ((uncopied_explores range inside).closed model member id (mem_copyLinks.mpr linked)).imp_left fun known => ?_
  exact Option.ne_none_iff_exists'.mp fun absent => Copies.lookup_eq_none_iff.mp absent known

end Range

theorem Copying.copied_or_uncopied (known : Copying store copies) (inside : root < store.size)
    (reached : store.Reaches root id) : (∃ copy, copies.lookup id = some copy) ∨ id ∈ store.uncopied copies root := by
  induction reached with
  | refl =>
    refine ((uncopied_explores known.range inside).finds root List.mem_cons_self).imp_left fun found => ?_
    exact Option.ne_none_iff_exists'.mp fun absent => Copies.lookup_eq_none_iff.mp absent found
  | tail _ linked ih =>
    rcases ih with ⟨copy, copied⟩ | member
    · exact Or.inl (known.closed _ copy copied _ linked)
    · exact copied_or_uncopied_of_link known.range inside member linked

end Uncopied

section CopyInto
variable {store : Builders} {copies : Copies} {root : BuilderId}

section Range
variable (range : store.InRange) (inside : root < store.size)
include range inside

theorem copyInto_size : (store.copyInto copies root).2.1.size = store.size + (store.uncopied copies root).length :=
  (copyInto_makes range inside).size

theorem copyInto_get_new {position : Nat} {id : BuilderId} (found : (store.uncopied copies root)[position]? = some id) :
    (store.copyInto copies root).2.1.get (store.size + position) =
      relink (store.copyInto copies root).2.2 (store.get id) := by
  have made : (store.copyInto copies root).2.1.store = _ := (copyInto_makes range inside).store
  simp only [get, made, Array.getD_eq_getD_getElem?, size]
  rw [Array.getElem?_append_right (Nat.le_add_right _ _)]
  simp [found]

theorem copyInto_lookup {id copy : Nat} :
    (store.copyInto copies root).2.2.lookup id = some copy ↔
      copies.lookup id = some copy ∨ copies.lookup id = none ∧
        store.size ≤ copy ∧ (store.uncopied copies root)[copy - store.size]? = some id := by
  have extended : (store.copyInto copies root).2.2 = _ := (copyInto_makes range inside).copies
  simp only [extended, List.lookup_append, Option.or_eq_some_iff, lookup_zipIdx (uncopied_nodup range inside)]

theorem copyInto_keeps {id copy : BuilderId} (copied : copies.lookup id = some copy) :
    (store.copyInto copies root).2.2.lookup id = some copy :=
  (copyInto_lookup range inside).mpr (Or.inl copied)

theorem copyInto_adds {id : BuilderId} (member : id ∈ store.uncopied copies root) :
    ∃ copy, (store.copyInto copies root).2.2.lookup id = some copy := by
  obtain ⟨position, found⟩ := List.mem_iff_getElem?.mp member
  have absent := lookup_of_mem_uncopied range inside member
  refine ⟨store.size + position, (copyInto_lookup range inside).mpr (Or.inr ⟨absent, by omega, ?_⟩)⟩
  rw [Nat.add_sub_cancel_left]
  exact found

theorem lookup_of_new {copy : Nat} (after : store.size ≤ copy) (before : copy < (store.copyInto copies root).2.1.size) :
    ∃ id ∈ store.uncopied copies root, copies.lookup id = none ∧
      (store.copyInto copies root).2.2.lookup id = some copy := by
  rw [copyInto_size range inside] at before
  have bound : copy - store.size < (store.uncopied copies root).length := by omega
  have located := List.getElem?_eq_getElem bound
  have member := List.mem_of_getElem? located
  have uncopied := lookup_of_mem_uncopied range inside member
  exact ⟨_, member, uncopied, (copyInto_lookup range inside).mpr (Or.inr ⟨uncopied, after, located⟩)⟩

end Range

theorem Copying.lookup_of_reaches (known : Copying store copies) (inside : root < store.size) {id : BuilderId}
    (reached : store.Reaches root id) : ∃ copy, (store.copyInto copies root).2.2.lookup id = some copy := by
  rcases known.copied_or_uncopied inside reached with ⟨copy, copied⟩ | member
  · exact ⟨copy, copyInto_keeps known.range inside copied⟩
  · exact copyInto_adds known.range inside member

/-- A number of the copies is either one of an earlier copy or one of a new builder. -/
theorem Copying.lookup_cases (known : Copying store copies) (inside : root < store.size) {id copy : Nat}
    (found : (store.copyInto copies root).2.2.lookup id = some copy) :
    copies.lookup id = some copy ∧ copy < store.size ∨
      copies.lookup id = none ∧ id ∈ store.uncopied copies root ∧
        ∃ position : Nat, copy = store.size + position ∧ (store.uncopied copies root)[position]? = some id := by
  rcases (copyInto_lookup known.range inside).mp found with copied | ⟨uncopied, after, located⟩
  · exact Or.inl ⟨copied, (known.inside id copy copied).2⟩
  · exact Or.inr ⟨uncopied, List.mem_of_getElem? located, copy - store.size, by omega, located⟩

theorem Copying.lookup_injective (known : Copying store copies) (inside : root < store.size) {first second copy : Nat}
    (left : (store.copyInto copies root).2.2.lookup first = some copy)
    (right : (store.copyInto copies root).2.2.lookup second = some copy) : first = second := by
  rcases known.lookup_cases inside left with ⟨earlier, small⟩ | ⟨_, _, position, rfl, located⟩
  · rcases known.lookup_cases inside right with ⟨other, _⟩ | ⟨_, _, position, rfl, _⟩
    · exact known.injective first second copy earlier other
    · omega
  · rcases known.lookup_cases inside right with ⟨_, small⟩ | ⟨_, _, other, same, found⟩
    · omega
    · rw [Nat.add_left_cancel same, found] at located
      exact (Option.some.inj located).symm

private theorem image_eq {copies : Copies} {id copy : BuilderId} (copied : copies.lookup id = some copy) :
    copies.lookup id = some (copies.image id) := by
  simp [Copies.image, copied]

theorem relink_faithful {before after : Builders} {copies : Copies} {id copy : BuilderId}
    (made : after.get copy = relink copies (before.get id))
    (linked : ∀ next ∈ before.links id, ∃ copy, copies.lookup next = some copy) :
    IsCopy before after copies id copy := by
  have image (next : BuilderId) (member : next ∈ before.links id) :
      copies.lookup next = some (copies.image next) := by
    obtain ⟨copy, copied⟩ := linked next member
    exact image_eq copied
  refine ⟨by rw [made]; rfl, by rw [made]; rfl, by rw [made]; rfl, by rw [made]; rfl, ?_, ?_, ?_⟩
  · cases base : (before.get id).base with
    | none => simp [made, relink, base]
    | some next => simpa [made, relink, base] using image next (mem_links.mpr (Or.inl base))
  · cases item : (before.get id).item with
    | none => simp [made, relink, item]
    | some next => simpa [made, relink, item] using image next (mem_links.mpr (Or.inr (Or.inl item)))
  · simp only [made, relink, List.map_map]
    exact List.map_congr_left fun next member => image next (mem_links.mpr (Or.inr (Or.inr member)))

theorem IsCopy.mono {before after later : Builders} {copies extended : Copies} {id copy : BuilderId}
    (faithful : IsCopy before after copies id copy) (same : later.get copy = after.get copy)
    (kept : ∀ id copy, copies.lookup id = some copy → extended.lookup id = some copy) :
    IsCopy before later extended id copy := by
  have option {link image : Option BuilderId} (mapped : link.map (copies.lookup ·) = image.map some) :
      link.map (extended.lookup ·) = image.map some := by
    cases link with
    | none => simpa using mapped
    | some next =>
      cases image with
      | none => simp at mapped
      | some copy => simpa using kept next copy (by simpa using mapped)
  have list {links images : List BuilderId} (mapped : links.map (copies.lookup ·) = images.map some) :
      links.map (extended.lookup ·) = images.map some := by
    induction links generalizing images with
    | nil => simpa using mapped
    | cons next links ih =>
      cases images with
      | nil => simp at mapped
      | cons copy images =>
        obtain ⟨first, rest⟩ := List.cons.inj mapped
        exact congrArg₂ List.cons (kept next copy first) (ih rest)
  exact ⟨same ▸ faithful.target, same ▸ faithful.className, same ▸ faithful.fieldTag, same ▸ faithful.bag,
    option (same ▸ faithful.base), option (same ▸ faithful.item), list (same ▸ faithful.fields)⟩

theorem Copying.copyInto_faithful (known : Copying store copies) (inside : root < store.size) {id copy : BuilderId}
    (found : (store.copyInto copies root).2.2.lookup id = some copy) :
    IsCopy store (store.copyInto copies root).2.1 (store.copyInto copies root).2.2 id copy := by
  rcases known.lookup_cases inside found with ⟨copied, small⟩ | ⟨_, member, position, rfl, located⟩
  · exact (known.faithful id copy copied).mono (copyInto_get_old small) fun _ _ => copyInto_keeps known.range inside
  · refine relink_faithful (copyInto_get_new known.range inside located) fun next linked => ?_
    exact known.lookup_of_reaches inside ((reaches_of_mem_uncopied known.range inside member).tail linked)

theorem IsCopy.links {before after : Builders} {copies : Copies} {id copy : BuilderId}
    (faithful : IsCopy before after copies id copy) {next : BuilderId} (linked : next ∈ after.links copy) :
    ∃ model, copies.lookup model = some next := by
  have mapped {links : List BuilderId} {images : List BuilderId}
      (same : links.map (copies.lookup ·) = images.map some) (member : next ∈ images) :
      ∃ model, copies.lookup model = some next := by
    have inside : some next ∈ links.map (copies.lookup ·) := same ▸ List.mem_map_of_mem member
    obtain ⟨model, _, copied⟩ := List.mem_map.mp inside
    exact ⟨model, copied⟩
  rcases mem_links.mp linked with base | item | field
  · have same := congrArg Option.toList faithful.base
    simp only [Option.toList_map] at same
    exact mapped same (by simp [base])
  · have same := congrArg Option.toList faithful.item
    simp only [Option.toList_map] at same
    exact mapped same (by simp [item])
  · exact mapped faithful.fields field

theorem Copying.lookup_lt (known : Copying store copies) (inside : root < store.size) {id copy : Nat}
    (found : (store.copyInto copies root).2.2.lookup id = some copy) :
    copy < (store.copyInto copies root).2.1.size := by
  rw [copyInto_size known.range inside]
  rcases known.lookup_cases inside found with ⟨_, small⟩ | ⟨_, _, position, rfl, located⟩
  · omega
  · have bound := (List.getElem?_eq_some_iff.mp located).1
    omega

theorem Copying.copyInto (known : Copying store copies) (inside : root < store.size) :
    Copying (store.copyInto copies root).2.1 (store.copyInto copies root).2.2 := by
  have grows : store.size ≤ (store.copyInto copies root).2.1.size := copyInto_grows.size
  have model {id copy : Nat} (found : (store.copyInto copies root).2.2.lookup id = some copy) : id < store.size := by
    rcases known.lookup_cases inside found with ⟨copied, _⟩ | ⟨_, member, _⟩
    · exact (known.inside id copy copied).1
    · exact uncopied_lt known.range inside member
  have old {id next : BuilderId} (small : id < store.size)
      (linked : next ∈ (store.copyInto copies root).2.1.links id) : next ∈ store.links id := by
    simpa only [links, copyInto_get_old small] using linked
  refine ⟨?_, fun id copy found => ⟨Nat.lt_of_lt_of_le (model found) grows, known.lookup_lt inside found⟩,
    fun _ _ _ => known.lookup_injective inside, ?_, ?_⟩
  · intro id bound next linked
    by_cases small : id < store.size
    · exact Nat.lt_of_lt_of_le (known.range id small next (old small linked)) grows
    · obtain ⟨_, _, _, copied⟩ := lookup_of_new known.range inside (Nat.le_of_not_lt small) bound
      obtain ⟨_, found⟩ := (known.copyInto_faithful inside copied).links linked
      exact known.lookup_lt inside found
  · intro id copy found next linked
    have linked := old (model found) linked
    rcases known.lookup_cases inside found with ⟨copied, _⟩ | ⟨_, member, _⟩
    · obtain ⟨image, copied⟩ := known.closed id copy copied next linked
      exact ⟨image, copyInto_keeps known.range inside copied⟩
    · exact known.lookup_of_reaches inside ((reaches_of_mem_uncopied known.range inside member).tail linked)
  · intro id copy found
    have faithful := known.copyInto_faithful inside found
    have same : (store.copyInto copies root).2.1.get id = store.get id := copyInto_get_old (model found)
    exact ⟨same ▸ faithful.target, same ▸ faithful.className, same ▸ faithful.fieldTag, same ▸ faithful.bag,
      same ▸ faithful.base, same ▸ faithful.item, same ▸ faithful.fields⟩

theorem Copied.copying {original : Builders} (range : original.InRange) (earlier : Copied original store copies) :
    Copying store copies := by
  induction earlier with
  | none => exact .initial range
  | copy _ inside ih => exact ih.copyInto inside

theorem Copying.uncopied_length (known : Copying store copies) (inside : root < store.size) :
    (store.uncopied copies root).length = {id | store.Reaches root id ∧ copies.lookup id = none}.ncard := by
  have same : {id | store.Reaches root id ∧ copies.lookup id = none} = ↑(store.uncopied copies root).toFinset := by
    ext id
    simp only [Set.mem_ofPred_eq, List.coe_toFinset]
    constructor
    · rintro ⟨reached, uncopied⟩
      rcases known.copied_or_uncopied inside reached with ⟨copy, copied⟩ | member
      · rw [uncopied] at copied
        cases copied
      · exact member
    · exact fun member => ⟨reaches_of_mem_uncopied known.range inside member,
        lookup_of_mem_uncopied known.range inside member⟩
  rw [same, Set.ncard_coe_finset, List.toFinset_card_of_nodup (uncopied_nodup known.range inside)]

theorem Copying.isGraphCopy (known : Copying store copies) (inside : root < store.size) :
    IsGraphCopy store copies root (store.copyInto copies root).1 (store.copyInto copies root).2.1
      (store.copyInto copies root).2.2 where
  image := by
    obtain ⟨copy, found⟩ := known.lookup_of_reaches inside Relation.ReflTransGen.refl
    rw [List.singleton_inj.mp (copyInto_makes known.range inside).images]
    exact image_eq found
  kept _ _ := copyInto_keeps known.range inside
  injective _ _ _ := known.lookup_injective inside
  total _ := known.lookup_of_reaches inside
  only id uncopied found := by
    obtain ⟨copy, found⟩ := found
    rcases known.lookup_cases inside found with ⟨copied, _⟩ | ⟨_, member, _⟩
    · rw [uncopied] at copied
      cases copied
    · exact reaches_of_mem_uncopied known.range inside member
  fresh copy := by
    constructor
    · rintro ⟨id, uncopied, found⟩
      refine ⟨?_, known.lookup_lt inside found⟩
      rcases known.lookup_cases inside found with ⟨copied, _⟩ | ⟨_, _, position, rfl, _⟩
      · rw [uncopied] at copied
        cases copied
      · exact Nat.le_add_right _ _
    · rintro ⟨after, before⟩
      obtain ⟨id, _, uncopied, found⟩ := lookup_of_new known.range inside after before
      exact ⟨id, uncopied, found⟩
  grown := by rw [copyInto_size known.range inside, known.uncopied_length inside]
  faithful _ _ := known.copyInto_faithful inside
  builders _ := copyInto_get_old
  bags := bags_copyInto

/-- Copying is an isomorphism onto new numbers, whatever was copied before and however the links run. -/
theorem copyInto_isomorphism {original : Builders} (range : original.InRange) (earlier : Copied original store copies)
    (inside : root < store.size) :
    IsGraphCopy store copies root (store.copyInto copies root).1 (store.copyInto copies root).2.1
      (store.copyInto copies root).2.2 :=
  (earlier.copying range).isGraphCopy inside

end CopyInto

/-- A builder that is its own base, and its item, which has both of them as fields. -/
def knot : Builders where
  store := #[{ base := some 0, item := some 1 }, { fields := [0, 1, 0], bag := 1 }]
  bags := #[[], []]

private theorem knot_inRange : knot.InRange := by
  have listed : ∀ id < 2, ∀ next ∈ knot.links id, next < 2 := by decide
  exact listed

theorem copyInto_knot : knot.InRange ∧ Copied knot (knot.copyInto [] 1).2.1 (knot.copyInto [] 1).2.2 ∧
    3 < (knot.copyInto [] 1).2.1.size ∧
    IsGraphCopy (knot.copyInto [] 1).2.1 (knot.copyInto [] 1).2.2 3
      ((knot.copyInto [] 1).2.1.copyInto (knot.copyInto [] 1).2.2 3).1
      ((knot.copyInto [] 1).2.1.copyInto (knot.copyInto [] 1).2.2 3).2.1
      ((knot.copyInto [] 1).2.1.copyInto (knot.copyInto [] 1).2.2 3).2.2 := by
  have earlier : Copied knot (knot.copyInto [] 1).2.1 (knot.copyInto [] 1).2.2 :=
    Copied.none.copy (show 1 < knot.size by decide)
  have inside : 3 < (knot.copyInto [] 1).2.1.size := by cbv
  exact ⟨knot_inRange, earlier, inside, copyInto_isomorphism knot_inRange earlier inside⟩

example : (knot.copy 0).2.store.toList.map (·.base) = [some 0, none, some 2, none] := by cbv

end SchemaClasses.Builders
