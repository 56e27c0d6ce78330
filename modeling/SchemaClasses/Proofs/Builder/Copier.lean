import SchemaClasses.Proofs.Builder.Range

/-! What copying comes to in the end. The builders that get copies are those that a search by recursion lists,
in its order; the copies stand in that order behind all that was there, each with links to the copies of what
its model links to. -/

namespace SchemaClasses.Builders

private theorem modify_push_append {α : Type} (items : Array α) (item : α) (more : List α) (f : α → α) :
    (items.push item ++ more.toArray).modify items.size f = items ++ (f item :: more).toArray := by
  apply Array.toList_inj.mp
  rw [Array.toList_modify]
  simp [List.modify_eq_set_getElem?]

def Copies.image (copies : Copies) (id : BuilderId) : BuilderId :=
  (copies.lookup id).getD id

/-- A builder whose links lead to the copies. -/
def relink (copies : Copies) (builder : Builder) : Builder :=
  { builder with
    item := builder.item.map copies.image
    base := builder.base.map copies.image
    fields := builder.fields.map copies.image }

namespace Copies
variable {copies : Copies} {id : BuilderId}

theorem lookup_eq_none_iff : copies.lookup id = none ↔ id ∉ copies.map Prod.fst := by
  rw [List.lookup_eq_none_iff, List.mem_map, not_exists]
  exact forall_congr' fun entry => ⟨fun apart ⟨member, same⟩ => by simp [same] at apart; exact apart member,
    fun absent member => bne_iff_ne.mpr fun same => absent ⟨member, same.symm⟩⟩

theorem image_append (known : id ∈ copies.map Prod.fst) (more : Copies) :
    Copies.image (copies ++ more) id = copies.image id := by
  cases found : copies.lookup id with
  | none => exact absurd known (lookup_eq_none_iff.mp found)
  | some copy => simp [image, List.lookup_append, found]

theorem relink_append {builders : Builders} (known : ∀ next ∈ builders.copyLinks id, next ∈ copies.map Prod.fst)
    (more : Copies) :
    relink (copies ++ more) (builders.get id) = relink copies (builders.get id) := by
  simp only [copyLinks, List.forall_mem_append, Option.mem_toList] at known
  obtain ⟨⟨item, base⟩, fields⟩ := known
  have option {link : Option BuilderId} (member : ∀ next, link = some next → next ∈ copies.map Prod.fst) :
      link.map (Copies.image (copies ++ more)) = link.map copies.image := by
    cases link with
    | none => rfl
    | some next => exact congrArg some (image_append (member next rfl) more)
  rw [relink, relink, option item, option base, List.map_congr_left fun next member =>
    image_append (fields next member) more]

end Copies

namespace Copier
variable {models : Builders} {copier next later : Copier models.size}
  {ids others images copies fresh further : List BuilderId}
  {id : BuilderId}

structure Keeps (copier : Copier models.size) : Prop where
  size : models.size ≤ copier.builders.size
  get : ∀ id < models.size, copier.builders.get id = models.get id

theorem Keeps.grows (keeps : copier.Keeps) (grows : copier.Grows later) : later.Keeps where
  size := keeps.size.trans grows.size
  get id inside := (grows.get id (Nat.lt_of_lt_of_le inside keeps.size)).trans (keeps.get id inside)

/-- Copies of some numbers are made: `fresh` lists the builders that had none. -/
structure Makes (copier : Copier models.size) (ids images fresh : List BuilderId)
    (later : Copier models.size) : Prop where
  explores : Explores models.copyLinks (copier.copies.map Prod.fst) ids fresh
  copies : later.copies = copier.copies ++ fresh.zipIdx copier.builders.size
  store : later.builders.store =
    copier.builders.store ++ (fresh.map fun id => relink later.copies (models.get id)).toArray
  images : images = ids.map later.copies.image

namespace Makes

theorem keys (makes : copier.Makes ids images fresh next) :
    next.copies.map Prod.fst = copier.copies.map Prod.fst ++ fresh := by
  rw [makes.copies, List.map_append, List.zipIdx_map_fst]

theorem size (makes : copier.Makes ids images fresh next) :
    next.builders.size = copier.builders.size + fresh.length := by
  simp [Builders.size, makes.store]

theorem nil : copier.Makes [] [] [] copier :=
  ⟨.done, (List.append_nil _).symm, (Array.append_empty).symm, rfl⟩

theorem known {copy : BuilderId} (found : copier.copies.lookup id = some copy) :
    copier.Makes [id] [copy] [] copier where
  explores := .again (not_not.mp fun absent => by simp [Copies.lookup_eq_none_iff.mpr absent] at found) .done
  copies := (List.append_nil _).symm
  store := (Array.append_empty).symm
  images := by simp [Copies.image, found]

/-- Copies of some numbers and then of others. What was made of the first is not changed any more. -/
theorem append (makes : copier.Makes ids images fresh next) (more : next.Makes others copies further later) :
    copier.Makes (ids ++ others) (images ++ copies) (fresh ++ further) later where
  explores := makes.explores.append (makes.keys ▸ more.explores)
  copies := by rw [more.copies, makes.copies, makes.size, List.zipIdx_append, List.append_assoc, Nat.add_comm]
  store := by
    have known {id : BuilderId} (member : id ∈ copier.copies.map Prod.fst ∨ id ∈ fresh) :
        id ∈ next.copies.map Prod.fst := by
      rw [makes.keys]
      exact List.mem_append.mpr member
    have same : (fresh.map fun id => relink next.copies (models.get id)) = fresh.map fun id =>
      relink later.copies (models.get id) :=
      List.map_congr_left fun id member => by
        rw [more.copies, Copies.relink_append fun link linked => known (makes.explores.closed id member link linked)]
    rw [List.map_append, ← List.append_toArray, ← Array.append_assoc, more.store, makes.store, same]
  images := by
    have known : ∀ id ∈ ids, id ∈ next.copies.map Prod.fst := fun id member => by
      rw [makes.keys]
      exact List.mem_append.mpr (makes.explores.finds id member)
    rw [List.map_append, ← more.images, makes.images, more.copies]
    exact congrArg (· ++ copies) (List.map_congr_left fun id member => (Copies.image_append (known id member) _).symm)

/-- A copy is registered, then copies of the item, the base and the fields are made, and it gets links to them. -/
theorem first {linked derived filled : Copier models.size} {item base fields items bases rest : List BuilderId}
    (keeps : copier.Keeps) (absent : copier.copies.lookup id = none) (inside : id < models.size)
    (itemMade : (copier.register id).Makes (copier.builders.get id).item.toList item items linked)
    (baseMade : linked.Makes (copier.builders.get id).base.toList base bases derived)
    (fieldsMade : derived.Makes (copier.builders.get id).fields fields rest filled) :
    copier.Makes [id] [copier.builders.size] (id :: (items ++ bases ++ rest))
      (filled.link copier.builders.size item.head? base.head? fields) := by
  rw [keeps.get id inside] at itemMade baseMade fieldsMade
  have makes := (itemMade.append baseMade).append fieldsMade
  have keys : (copier.register id).copies.map Prod.fst = copier.copies.map Prod.fst ++ [id] := by simp [register]
  have copies : filled.copies = copier.copies ++ (id :: (items ++ bases ++ rest)).zipIdx copier.builders.size := by
    rw [makes.copies]
    simp [register, Builders.size]
  have images := makes.images
  rw [List.map_append, List.map_append] at images
  obtain ⟨front, rfl⟩ := List.append_inj images (by simp [itemMade.images, baseMade.images])
  obtain ⟨rfl, rfl⟩ := List.append_inj front (by simp [itemMade.images])
  refine ⟨?_, copies, ?_, ?_⟩
  · have inner := makes.explores
    rw [keys] at inner
    have explores := Explores.first (Copies.lookup_eq_none_iff.mp absent) inner .done
    rwa [List.append_nil] at explores
  · have made := makes.store
    simp only [register, keeps.get id inside] at made
    simp only [link, modify, Builders.size, made, modify_push_append, List.map_cons, relink, List.head?_map,
      Option.head?_toList]
  · have found : filled.copies.lookup id = some copier.builders.size := by
      rw [copies, List.lookup_append, absent]
      simp
    simp [link, Copies.image, found]

end Makes

theorem Keeps.register (keeps : copier.Keeps) : (copier.register id).Keeps := keeps.grows .register

theorem copy_of_found {copy : BuilderId} (found : copier.copies.lookup id = some copy) :
    copier.copy id = ⟨copy, copier, .refl copier⟩ := by
  rw [Copier.copy]
  split
  · next same =>
    rw [found] at same
    cases same
    rfl
  · next absent =>
    rw [found] at absent
    cases absent

theorem copy_of_absent (absent : copier.copies.lookup id = none) (inside : id < models.size)
    {linked derived filled : Copier models.size} {item base fields : List BuilderId}
    {grows : (copier.register id).Grows linked} {further : linked.Grows derived} {last : derived.Grows filled}
    (ofItem : (copier.register id).copyEach (copier.builders.get id).item.toList = ⟨item, linked, grows⟩)
    (ofBase : linked.copyEach (copier.builders.get id).base.toList = ⟨base, derived, further⟩)
    (ofFields : derived.copyEach (copier.builders.get id).fields = ⟨fields, filled, last⟩) :
    copier.copy id =
      { value := copier.builders.size
        later := filled.link copier.builders.size item.head? base.head? fields
        grows := (Grows.register.trans (grows.trans (further.trans last))).link } := by
  cases congrArg Result.value ofItem
  cases congrArg Result.later ofItem
  cases congrArg Result.value ofBase
  cases congrArg Result.later ofBase
  cases congrArg Result.value ofFields
  cases congrArg Result.later ofFields
  rw [Copier.copy]
  split
  · next found =>
    rw [absent] at found
    cases found
  · rw [if_pos inside]

theorem copyEach_cons {copy : BuilderId} {grows : copier.Grows next} {further : next.Grows later}
    (made : copier.copy id = ⟨copy, next, grows⟩) (others : next.copyEach ids = ⟨copies, later, further⟩) :
    copier.copyEach (id :: ids) = ⟨copy :: copies, later, grows.trans further⟩ := by
  cases congrArg Result.value made
  cases congrArg Result.later made
  cases congrArg Result.value others
  cases congrArg Result.later others
  rw [copyEach]

/-- The recursion makes copies of what it is asked for. -/
theorem makes (range : models.InRange) :
    (∀ (copier : Copier models.size) (id : BuilderId), copier.Keeps → id < models.size →
      ∃ fresh, copier.Makes [id] [(copier.copy id).value] fresh (copier.copy id).later) ∧
    ∀ (copier : Copier models.size) (ids : List BuilderId), copier.Keeps → (∀ id ∈ ids, id < models.size) →
      ∃ fresh, copier.Makes ids (copier.copyEach ids).value fresh (copier.copyEach ids).later := by
  apply copy.mutual_induct
  case case1 =>
    intro copier id copy found _ _
    rw [copy_of_found found]
    exact ⟨[], .known found⟩
  case case2 =>
    intro copier id absent inside original item linked grows itemMade base derived further baseMade fields filled last
      fieldsMade ofItem ofBase ofFields keeps _
    have itemKept := keeps.register.grows grows
    have baseKept := itemKept.grows further
    have same : original = models.get id := keeps.get id inside
    have links := inRange_iff.mp range id inside
    rw [← same] at links
    rw [itemMade] at ofItem
    rw [baseMade] at ofBase
    rw [fieldsMade] at ofFields
    obtain ⟨_, ofItem⟩ := ofItem keeps.register fun next member => links.item next (Option.mem_toList.mp member)
    obtain ⟨_, ofBase⟩ := ofBase itemKept fun next member => links.base next (Option.mem_toList.mp member)
    obtain ⟨_, ofFields⟩ := ofFields baseKept links.fields
    rw [copy_of_absent absent inside itemMade baseMade fieldsMade]
    exact ⟨_, .first keeps absent inside ofItem ofBase ofFields⟩
  case case3 => exact fun copier id absent outside _ inside => absurd inside outside
  case case4 =>
    intro copier _ _
    rw [copyEach]
    exact ⟨[], .nil⟩
  case case5 =>
    intro copier id ids copy next grows made copies later further others ofFirst ofRest keeps inside
    obtain ⟨here, behind⟩ := List.forall_mem_cons.mp inside
    obtain ⟨fresh, first⟩ := ofFirst keeps here
    rw [made] at first
    obtain ⟨more, rest⟩ := ofRest (keeps.grows grows) behind
    rw [others] at rest
    rw [copyEach_cons made others]
    exact ⟨fresh ++ more, first.append rest⟩

end Copier

section CopyInto
variable {builders : Builders} {copies : Copies} {root : BuilderId}

/-- The builders that copying makes copies of, in the order of their copies. -/
def uncopied (builders : Builders) (copies : Copies) (root : BuilderId) : List BuilderId :=
  ((builders.copyInto copies root).2.2.drop copies.length).map Prod.fst

theorem copyInto_grows :
    (⟨builders, copies⟩ : Copier builders.size).Grows ⟨(builders.copyInto copies root).2.1,
      (builders.copyInto copies root).2.2⟩ :=
  (Copier.copy ⟨builders, copies⟩ root).grows

theorem copyInto_get_old {id : BuilderId} (inside : id < builders.size) :
    (builders.copyInto copies root).2.1.get id = builders.get id :=
  copyInto_grows.get id inside

@[simp] theorem bags_copyInto : (builders.copyInto copies root).2.1.bags = builders.bags :=
  copyInto_grows.bags

variable (range : builders.InRange) (inside : root < builders.size)
include range inside

theorem copyInto_makes : (⟨builders, copies⟩ : Copier builders.size).Makes [root] [(builders.copyInto copies root).1]
    (builders.uncopied copies root) ⟨(builders.copyInto copies root).2.1, (builders.copyInto copies root).2.2⟩ := by
  have keeps : (⟨builders, copies⟩ : Copier builders.size).Keeps := ⟨Nat.le_refl _, fun _ _ => rfl⟩
  obtain ⟨fresh, makes⟩ := (Copier.makes range).1 ⟨builders, copies⟩ root keeps inside
  have same : builders.uncopied copies root = fresh := by
    have added : (builders.copyInto copies root).2.2 = copies ++ fresh.zipIdx builders.size := makes.copies
    rw [uncopied, added, List.drop_left, List.zipIdx_map_fst]
  rw [same]
  exact makes

theorem uncopied_explores : Explores builders.copyLinks (copies.map Prod.fst) [root] (builders.uncopied copies root) :=
  (copyInto_makes range inside).explores

/-- What copying comes to: the search lists the builders to copy, the copies follow on what was there, in that
order, and have links to the images of what their models link to. -/
theorem copyInto_eq (copies : Copies) :
    let fresh := builders.uncopied copies root
    let extended := copies ++ fresh.zipIdx builders.size
    let made := fresh.map fun id => relink extended (builders.get id)
    Explores builders.copyLinks (copies.map Prod.fst) [root] fresh ∧
      builders.copyInto copies root =
        (extended.image root, { builders with store := builders.store ++ made.toArray }, extended) := by
  have makes := @copyInto_makes builders copies root range inside
  have extended : (builders.copyInto copies root).2.2 = copies ++
    (builders.uncopied copies root).zipIdx builders.size :=
    makes.copies
  have image := List.singleton_inj.mp makes.images
  have store := makes.store
  have bags := @bags_copyInto builders copies root
  simp only [extended] at image store
  refine ⟨makes.explores, ?_⟩
  rw [← image, ← store, ← bags, ← extended]

end CopyInto
end SchemaClasses.Builders
