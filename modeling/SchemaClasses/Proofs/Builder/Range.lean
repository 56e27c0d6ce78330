import SchemaClasses.Proofs.Builder.Changes
import SchemaClasses.Proofs.Builder.Exploration

/-! Stores whose links and bags are there: what keeps them so. -/

namespace SchemaClasses

/-- All links of a builder lead to numbers of one sort. -/
structure Builder.LinksTo (sort : BuilderId → Prop) (builder : Builder) : Prop where
  base : ∀ other, builder.base = some other → sort other
  item : ∀ other, builder.item = some other → sort other
  fields : ∀ other ∈ builder.fields, sort other

namespace Builder.LinksTo
variable {sort larger : BuilderId → Prop} {builder : Builder}

theorem bare {bag : Nat} {target : Option Target} {className : Option String} :
    LinksTo sort { target, className, bag } := ⟨by simp, by simp, by simp⟩

theorem mono (links : builder.LinksTo sort) (implies : ∀ other, sort other → larger other) : builder.LinksTo larger :=
  ⟨fun other found => implies other (links.base other found), fun other found => implies other (links.item other found),
    fun other member => implies other (links.fields other member)⟩

theorem push (links : builder.LinksTo sort) {fields : List BuilderId} (hold : ∀ other ∈ fields, sort other) :
    ({ builder with fields := builder.fields ++ fields } : Builder).LinksTo sort :=
  ⟨links.base, links.item, List.forall_mem_append.mpr ⟨links.fields, hold⟩⟩

end Builder.LinksTo

namespace Builders
variable {builders : Builders} {id : BuilderId}

theorem inRange_iff : builders.InRange ↔ ∀ id < builders.size, (builders.get id).LinksTo (· < builders.size) := by
  constructor
  · intro range id inside
    exact ⟨fun other base => range id inside other (mem_links.mpr (Or.inl base)),
      fun other item => range id inside other (mem_links.mpr (Or.inr (Or.inl item))),
      fun other field => range id inside other (mem_links.mpr (Or.inr (Or.inr field)))⟩
  · intro links id inside next linked
    rcases mem_links.mp linked with base | item | field
    · exact (links id inside).base next base
    · exact (links id inside).item next item
    · exact (links id inside).fields next field

theorem InRange.modify {f : Builder → Builder} (range : builders.InRange)
    (keeps : ∀ builder : Builder, builder.LinksTo (· < builders.size) → (f builder).LinksTo (· < builders.size)) :
    (builders.modify id f).InRange := by
  rw [inRange_iff] at range ⊢
  rw [size_modify]
  intro other inside
  by_cases same : other = id
  · subst same
    rw [get_modify_same inside]
    exact keeps _ (range other inside)
  · rw [get_modify_other same]
    exact range other inside

theorem InRange.create (range : builders.InRange) {target : Option Target} {className : Option String} :
    (builders.create { target, className }).2.InRange := by
  rw [inRange_iff] at range ⊢
  rw [size_create]
  intro other inside
  rcases Nat.lt_succ_iff_lt_or_eq.mp inside with old | rfl
  · rw [get_create_old old]
    exact (range other old).mono fun _ => Nat.lt_succ_of_lt
  · rw [get_create_last]
    exact .bare

end Builders
end SchemaClasses
