import SchemaClasses.Proofs.Builder.Edits
import SchemaClasses.Proofs.Definition.Continuing

/-! Definitions of copies. A copy has the definition of its original, and whatever is done to copies and to
builders that come later, the builders that were there before keep their definitions. -/

namespace SchemaClasses

def Rendering.definition? (style : Style) (builders : Builders) (id : BuilderId) : Option Definition :=
  (ofBuilder? style builders id).map Rendering.definition

namespace Builders

section IsCopy
variable {before after : Builders} {copies : Copies} {id copy : BuilderId} {style : Style}

namespace IsCopy
variable (faithful : IsCopy before after copies id copy)
include faithful

theorem builtin? : (after.get copy).builtin? = (before.get id).builtin? := by
  rw [Builder.builtin?, Builder.builtin?, faithful.target]

theorem isList : (after.get copy).isList = (before.get id).isList := by
  rw [Builder.isList, Builder.isList, faithful.target]

theorem fieldName? : after.fieldName? copy = before.fieldName? id := by
  simp only [Builders.fieldName?, Builder.fieldName?, faithful.fieldTag, faithful.className, faithful.builtin?]

end IsCopy

private theorem copied_link {link image : Option BuilderId} (copied : link.map (copies.lookup ·) = image.map some) :
    link = none ∧ image = none ∨ ∃ next copy, link = some next ∧ copies.lookup next = some copy ∧
      image = some copy := by
  cases link with
  | none => exact Or.inl ⟨rfl, Option.map_eq_none_iff.mp copied.symm⟩
  | some next =>
    obtain ⟨copy, rfl, found⟩ := Option.map_eq_some_iff.mp copied.symm
    exact Or.inr ⟨next, copy, rfl, found.symm, rfl⟩

/-- What is made of some of the copies one by one is what is made of their originals. -/
private theorem mapM_copied {α : Type} {among chosen : BuilderId → Bool} {read made : BuilderId → Option α}
    {originals images : List BuilderId} (copied : originals.map (copies.lookup ·) = images.map some)
    (same : ∀ original ∈ originals, ∀ image, copies.lookup original = some image →
      chosen image = among original ∧ made image = read original) :
    (images.filter chosen).mapM made = (originals.filter among).mapM read := by
  induction originals generalizing images with
  | nil =>
    cases images with
    | nil => rfl
    | cons => cases copied
  | cons original originals ih =>
    cases images with
    | nil => cases copied
    | cons image images =>
      obtain ⟨first, rest⟩ := List.cons.inj copied
      obtain ⟨alike, equal⟩ := same original List.mem_cons_self image first
      have others := ih rest fun original member => same original (List.mem_cons_of_mem _ member)
      rw [List.filter_cons, List.filter_cons, alike]
      cases among original with
      | true => rw [if_pos rfl, if_pos rfl, List.mapM_cons, List.mapM_cons, equal, others]
      | false => exact others

end IsCopy

section Faithful
variable {before after : Builders} {copies : Copies} {id copy : BuilderId} {style : Style}
  (faithful : ∀ id copy, copies.lookup id = some copy → IsCopy before after copies id copy)
include faithful

theorem copied_layers {layers : Nat} {name : String} (layered : style.Layers before id layers name)
    (copied : copies.lookup id = some copy) : style.Layers after copy layers name := by
  induction layered generalizing copy with
  | @single id single =>
    have same := faithful id copy copied
    rw [← same.isList] at single
    rw [← same.builtin?, ← same.className]
    exact .single single
  | @untyped id list item =>
    have same := faithful id copy copied
    rcases copied_link same.item with ⟨_, none⟩ | ⟨_, _, some, _⟩
    · exact .untyped (same.isList.trans list) none
    · cases item.symm.trans some
  | @item id inner layers name holds layered ih =>
    have same := faithful id copy copied
    rcases copied_link same.item with ⟨none, _⟩ | ⟨_, image, some, found, held⟩
    · cases holds.2.symm.trans none
    · cases holds.2.symm.trans some
      exact .item ⟨same.isList.trans holds.1, held⟩ (ih found)

theorem copied_superclass (copied : copies.lookup id = some copy) :
    style.superclass after copy = style.superclass before id := by
  have same := faithful id copy copied
  rcases copied_link same.base with ⟨left, right⟩ | ⟨base, image, left, copied, right⟩
  · simp only [Style.superclass, left, right]
  · have model := faithful base image copied
    simp only [Style.superclass, left, right, model.className, model.builtin?]

variable (range : before.InRange) (ends : before.ItemsEnd) (size : before.size ≤ after.size)
include range ends size

theorem copied_typeName? (inside : id < before.size) (copied : copies.lookup id = some copy) :
    style.typeName? after copy = style.typeName? before id := by
  obtain ⟨layers, few, name, layered, written⟩ :=
    Style.typeName?_of_endsFrom style range (fun list _ => ends list) inside
  rw [written]
  exact (copied_layers faithful layered copied).typeNameWithin? (few.trans size)

theorem copied_accessors? (inside : id < before.size) (copied : copies.lookup id = some copy) :
    Rendering.accessors? style after (after.get copy).fields =
      Rendering.accessors? style before (before.get id).fields := by
  refine mapM_copied (faithful id copy copied).fields fun field member image found => ?_
  have within := range id inside field (mem_links.mpr (Or.inr (Or.inr member)))
  rw [Rendering.accessor?, Rendering.accessor?, (faithful field image found).fieldName?,
    copied_typeName? faithful range ends size within found]
  exact ⟨rfl, rfl⟩

theorem copied_definition (bags : after.bags = before.bags) (inside : id < before.size)
    (copied : copies.lookup id = some copy) :
    Rendering.definition? style after copy = Rendering.definition? style before id := by
  have same := faithful id copy copied
  have rules : after.rules copy = before.rules id := by rw [Builders.rules, Builders.rules, bags, same.bag]
  unfold Rendering.definition? Rendering.ofBuilder?
  rw [same.builtin?, same.className]
  cases (before.get id).builtin? with
  | some type => rfl
  | none =>
    cases (before.get id).className with
    | none => rfl
    | some name =>
      simp only [copied_accessors? faithful range ends size inside copied]
      cases Rendering.accessors? style before (before.get id).fields with
      | none => rfl
      | some accessors => simp [Rendering.ofClass, rules, copied_superclass faithful copied]

end Faithful

/-- An edit that leaves the first so many builders alone. A rule may be pushed into a bag that one of them
shares, so that is not among these. -/
def Edit.Spares (bound : Nat) : Edit → Prop
  | .pushRule .. => False
  | edit => ∀ id, edit.aim? = some id → bound ≤ id

/-- All that was there before is there, and as it was. -/
structure Spared (builders later : Builders) : Prop where
  size : builders.size ≤ later.size
  get : ∀ id < builders.size, later.get id = builders.get id
  bags : ∀ bag < builders.bags.size, later.bags[bag]? = builders.bags[bag]?

namespace Spared
variable {builders later : Builders} {id root : BuilderId} (spared : builders.Spared later)
include spared

theorem continues (ranged : builders.Ranged) : builders.Continues later where
  size := spared.size
  get := spared.get
  rules id inside := by
    simp only [rules, spared.get id inside, Array.getD_eq_getD_getElem?, spared.bags _ (ranged.bags id inside)]

theorem modify (behind : builders.size ≤ id) {f : Builder → Builder} : builders.Spared (later.modify id f) where
  size := size_modify.symm ▸ spared.size
  get other inside := by
    rw [get_modify_other (Nat.ne_of_lt (Nat.lt_of_lt_of_le inside behind))]
    exact spared.get other inside
  bags := spared.bags

theorem pushBag (rules : List Rule) : builders.Spared { later with bags := later.bags.push rules } where
  size := spared.size
  get := spared.get
  bags bag inside := by
    have there := spared.bags bag inside
    have known : bag < later.bags.size := by
      rw [Array.getElem?_eq_getElem inside] at there
      exact (Array.getElem?_eq_some_iff.mp there).1
    rw [Array.getElem?_push_lt known, ← Array.getElem?_eq_getElem known]
    exact there

theorem create {builder : Builder} : builders.Spared (later.create builder).2 where
  size := spared.size.trans (size_create.symm ▸ Nat.le_succ _)
  get id inside := (get_create_old (Nat.lt_of_lt_of_le inside spared.size)).trans (spared.get id inside)
  bags := (spared.pushBag []).bags

theorem copyInto {copies : Copies} : builders.Spared (later.copyInto copies root).2.1 where
  size := spared.size.trans copyInto_grows.size
  get id inside := (copyInto_get_old (Nat.lt_of_lt_of_le inside spared.size)).trans (spared.get id inside)
  bags bag inside := bags_copyInto.symm ▸ spared.bags bag inside

theorem apply {edit : Edit} (spares : edit.Spares builders.size) : builders.Spared (edit.apply later) := by
  cases edit with
  | create | createNamed | createBuiltin => exact spared.create
  | set id => exact spared.modify (spares id rfl)
  | setBuiltinBase id => exact spared.create.modify (spares id rfl)
  | pushField id => exact spared.modify (spares id rfl)
  | pushRule => exact spares.elim
  | replaceRules id more => exact (spared.modify (spares id rfl)).pushBag more
  | copy | copyInto => exact spared.copyInto

theorem editAll {edits : List Edit} (spare : ∀ edit ∈ edits, edit.Spares builders.size) :
    builders.Spared (later.editAll edits) := by
  induction edits generalizing later with
  | nil => exact spared
  | cons edit edits ih =>
    obtain ⟨first, others⟩ := List.forall_mem_cons.mp spare
    exact ih (spared.apply first) others

end Spared

/-- A copy of a graph has the definitions of its originals, and no edits of copies or of later builders change
the definition of a builder that was there before. -/
theorem copies_define_alike {builders : Builders} (ranged : builders.Ranged) (ends : builders.ItemsEnd)
    {root : BuilderId} (inside : root < builders.size) (style : Style) :
    (∀ id, builders.Reaches root id → ∃ copy, (builders.copyInto [] root).2.2.lookup id = some copy ∧
      builders.size ≤ copy ∧ copy < (builders.copy root).2.size ∧
        Rendering.definition? style (builders.copy root).2 copy =
          Rendering.definition? style (builders.copy root).2 id) ∧
    ∀ edits : List Edit, (∀ edit ∈ edits, edit.Spares builders.size) → ∀ id < builders.size,
      Rendering.definition? style ((builders.copy root).2.editAll edits) id =
        Rendering.definition? style builders id := by
  have isCopy := copyInto_isomorphism ranged.links .none inside
  have spared : builders.Spared (builders.copy root).2 :=
    (⟨Nat.le_refl _, fun _ _ => rfl, fun _ _ => rfl⟩ : builders.Spared builders).copyInto
  have kept (edits : List Edit) (spare : ∀ edit ∈ edits, edit.Spares builders.size) {id : BuilderId}
    (within : id < builders.size) :
      Rendering.definition? style ((builders.copy root).2.editAll edits) id =
          Rendering.definition? style builders id := by
    rw [Rendering.definition?, Rendering.definition?,
      ((spared.editAll spare).continues ranged).ofBuilder? ranged.links within]
  refine ⟨fun id reached => ?_, fun edits spare id within => kept edits spare within⟩
  have within := ranged.links.reaches reached inside
  obtain ⟨copy, found⟩ := isCopy.total id reached
  obtain ⟨behind, bound⟩ := (isCopy.fresh copy).mp ⟨id, rfl, found⟩
  refine ⟨copy, found, behind, bound, ?_⟩
  calc Rendering.definition? style (builders.copy root).2 copy
      = Rendering.definition? style builders id :=
        copied_definition isCopy.faithful ranged.links ends spared.size isCopy.bags within found
    _ = Rendering.definition? style (builders.copy root).2 id :=
        (kept [] (List.forall_mem_nil _) within).symm

/-- A class that holds itself, and a list of itself. -/
def nested : Builders where
  store := #[{ target := some .list, fieldTag := some "items", item := some 1 },
    { className := some "A", base := some 2, fields := [0, 1], bag := 1 },
    { target := some (.builtin .string), bag := 2 }]
  bags := #[[], [.choice ["items", "a"]], []]

theorem nested_copies_define_alike : nested.Ranged ∧ nested.ItemsEnd ∧ 1 < nested.size ∧
    (∀ id, nested.Reaches 1 id → ∃ copy, (nested.copyInto [] 1).2.2.lookup id = some copy ∧
      nested.size ≤ copy ∧ copy < (nested.copy 1).2.size ∧
        Rendering.definition? {} (nested.copy 1).2 copy = Rendering.definition? {} (nested.copy 1).2 id) ∧
    ∀ edits : List Edit, (∀ edit ∈ edits, edit.Spares nested.size) → ∀ id < nested.size,
      Rendering.definition? {} ((nested.copy 1).2.editAll edits) id = Rendering.definition? {} nested id := by
  have links : ∀ id < 3, ∀ next ∈ nested.links id, next < 3 := by decide
  have bags : ∀ id < 3, (nested.get id).bag < 3 := by decide
  have ranged : nested.Ranged := { links, bags }
  have ends : nested.ItemsEnd := itemsEnd_of_ascending (by decide)
  have inside : 1 < nested.size := by decide
  exact ⟨ranged, ends, inside, copies_define_alike ranged ends inside {}⟩

/-- The copy is renamed, loses its rule and gets another field; the original is defined as before. -/
example : let edits : List Edit := [.set 3 (.className (some "B")), .replaceRules 3 [], .create, .pushField 3 6]
    [1, 3].map (fun id => ((Rendering.definition? {} ((nested.copy 1).2.editAll edits) id).map fun definition =>
      (definition.name, definition.accessors.map (·.typeName), definition.checks.length))) =
        [some ("A", ["Vec<A>", "A"], 3), some ("B", ["Vec<B>", "B"], 2)] := by cbv

end Builders
end SchemaClasses
