import SchemaClasses.Proofs.Builder.Exploration

/-! Builders of two stores that match link by link. What can be reached from two of them has the same
shape. -/

namespace SchemaClasses

def Rule.isChoice : Rule → Bool
  | choice _ => true
  | _ => false

def Builders.facets (builders : Builders) (builder : BuilderId) : List Rule :=
  (builders.rules builder).filter fun rule => !rule.isChoice

/-- Two builders are the same but for their links, and their links match. -/
structure Builder.Alike (matched : BuilderId → BuilderId → Prop) (left right : Builder) : Prop where
  target : right.target = left.target
  className : right.className = left.className
  fieldTag : right.fieldTag = left.fieldTag
  base : Option.Rel matched left.base right.base
  item : Option.Rel matched left.item right.item
  fields : List.Forall₂ matched left.fields right.fields

/-- A builder has the links of another under new numbers. -/
structure Builder.Renamed (rename : BuilderId → BuilderId) (left right : Builder) : Prop where
  target : right.target = left.target
  className : right.className = left.className
  fieldTag : right.fieldTag = left.fieldTag
  base : right.base = left.base.map rename
  item : right.item = left.item.map rename
  fields : right.fields = left.fields.map rename

/-- What is reached from `start` and from `finish` is the same up to the numbers of builders and up to
the choices among their rules. -/
structure Builders.Isomorphism (left right : Builders) (start finish : BuilderId)
    (rename : BuilderId → BuilderId) : Prop where
  bijective : Set.BijOn rename {builder | left.Reaches start builder} {builder | right.Reaches finish builder}
  image : rename start = finish
  renamed : ∀ builder, left.Reaches start builder →
    Builder.Renamed rename (left.get builder) (right.get (rename builder))
  facets : ∀ builder, left.Reaches start builder → right.facets (rename builder) = left.facets builder

namespace Builder.Alike
variable {matched : BuilderId → BuilderId → Prop} {left right : Builder}

private theorem flip_rel {first second : Option BuilderId} (same : Option.Rel matched first second) :
    Option.Rel (flip matched) second first := by
  cases same with
  | none => exact .none
  | some same => exact .some same

theorem symm (alike : Builder.Alike matched left right) : Builder.Alike (flip matched) right left where
  target := alike.target.symm
  className := alike.className.symm
  fieldTag := alike.fieldTag.symm
  base := flip_rel alike.base
  item := flip_rel alike.item
  fields := alike.fields.flip

theorem renamed {rename : BuilderId → BuilderId} (alike : Builder.Alike matched left right)
    (follows : ∀ first second, matched first second → second = rename first) : Builder.Renamed rename left right where
  target := alike.target
  className := alike.className
  fieldTag := alike.fieldTag
  base := by
    have base := alike.base
    generalize left.base = first, right.base = second at base
    cases base with
    | none => rfl
    | some same => exact congrArg some (follows _ _ same)
  item := by
    have item := alike.item
    generalize left.item = first, right.item = second at item
    cases item with
    | none => rfl
    | some same => exact congrArg some (follows _ _ same)
  fields := by
    have fields := alike.fields
    generalize left.fields = first, right.fields = second at fields
    induction fields with
    | nil => rfl
    | cons same _ ih => rw [List.map_cons, ← ih, follows _ _ same]

private theorem match_of_mem {first second : List BuilderId} (same : List.Forall₂ matched first second)
    {next : BuilderId} (member : next ∈ first) : ∃ other ∈ second, matched next other := by
  induction same with
  | nil => cases member
  | cons same _ ih =>
    rcases List.mem_cons.mp member with rfl | member
    · exact ⟨_, List.mem_cons_self, same⟩
    · obtain ⟨other, found, same⟩ := ih member
      exact ⟨other, List.mem_cons_of_mem _ found, same⟩

theorem link (alike : Builder.Alike matched left right) {next : BuilderId}
    (linked : left.base = some next ∨ left.item = some next ∨ next ∈ left.fields) :
    ∃ other, matched next other ∧ (right.base = some other ∨ right.item = some other ∨ other ∈ right.fields) := by
  have match? {first second : Option BuilderId} (same : Option.Rel matched first second) (found : first = some next) :
      ∃ other, matched next other ∧ second = some other := by
    cases same with
    | none => cases found
    | some same =>
      cases found
      exact ⟨_, same, rfl⟩
  rcases linked with base | item | field
  · obtain ⟨other, same, found⟩ := match? alike.base base
    exact ⟨other, same, Or.inl found⟩
  · obtain ⟨other, same, found⟩ := match? alike.item item
    exact ⟨other, same, Or.inr (Or.inl found)⟩
  · obtain ⟨other, found, same⟩ := match_of_mem alike.fields field
    exact ⟨other, same, Or.inr (Or.inr found)⟩

end Builder.Alike

namespace Builders
variable {matched : BuilderId → BuilderId → Prop} {left right : Builders}

theorem reaches_matched (alike : ∀ first second, matched first second →
      Builder.Alike matched (left.get first) (right.get second))
    {start finish builder : BuilderId} (same : matched start finish) (reached : left.Reaches start builder) :
    ∃ other, right.Reaches finish other ∧ matched builder other := by
  induction reached with
  | refl => exact ⟨finish, .refl, same⟩
  | tail _ linked ih =>
    obtain ⟨other, reached, same⟩ := ih
    obtain ⟨next, matched, found⟩ := (alike _ _ same).link (mem_links.mp linked)
    exact ⟨next, reached.tail (mem_links.mpr found), matched⟩

/-- Stores that match one to one have the same shape wherever they match. -/
theorem isomorphism_of_matched
    (functional : ∀ first second other, matched first second → matched first other → second = other)
    (injective : ∀ first second other, matched first other → matched second other → first = second)
    (alike : ∀ first second, matched first second → Builder.Alike matched (left.get first) (right.get second))
    (facets : ∀ first second, matched first second → right.facets second = left.facets first)
    {start finish : BuilderId} (same : matched start finish) :
    ∃ rename, Isomorphism left right start finish rename := by
  let rename (builder : BuilderId) : BuilderId := Classical.epsilon (matched builder)
  have renames {builder other : BuilderId} (same : matched builder other) : other = rename builder :=
    functional _ _ _ same (Classical.epsilon_spec ⟨other, same⟩)
  have there {builder : BuilderId} (reached : left.Reaches start builder) :
      right.Reaches finish (rename builder) ∧ matched builder (rename builder) := by
    obtain ⟨other, reached, same⟩ := reaches_matched alike same reached
    rw [← renames same]
    exact ⟨reached, same⟩
  refine ⟨rename, ⟨fun _ reached => (there reached).1, ?_, ?_⟩, (renames same).symm, ?_, ?_⟩
  · intro first reached second found image
    have matches' := (there found).2
    rw [← image] at matches'
    exact injective _ _ _ (there reached).2 matches'
  · intro other reached
    have back : ∀ first second, flip matched first second →
      Builder.Alike (flip matched) (right.get first) (left.get second) :=
      fun _ _ same => (alike _ _ same).symm
    obtain ⟨builder, reached, same⟩ := reaches_matched back same reached
    exact ⟨builder, reached, (renames same).symm⟩
  · exact fun builder reached => (alike _ _ (there reached).2).renamed fun _ _ => renames
  · exact fun builder reached => facets _ _ (there reached).2

end Builders
end SchemaClasses
