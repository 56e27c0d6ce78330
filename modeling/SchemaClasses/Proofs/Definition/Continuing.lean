import SchemaClasses.Proofs.Definition.TypeNames

/-! Definitions do not depend on builders that are added later. What a builder leads to was there when it
was linked, so the walks, the type names and the definitions made from it stay the same. -/

namespace SchemaClasses

namespace Builders

structure Continues (builders later : Builders) : Prop where
  size : builders.size ≤ later.size
  get : ∀ id < builders.size, later.get id = builders.get id
  rules : ∀ id < builders.size, later.rules id = builders.rules id

namespace Continues
variable {builders middle later : Builders} {id : BuilderId} {roots found : List BuilderId} {style : Style}

theorem refl : builders.Continues builders := ⟨Nat.le_refl _, fun _ _ => rfl, fun _ _ => rfl⟩

theorem trans (first : builders.Continues middle) (rest : middle.Continues later) : builders.Continues later where
  size := first.size.trans rest.size
  get id inside := (rest.get id (Nat.lt_of_lt_of_le inside first.size)).trans (first.get id inside)
  rules id inside := (rest.rules id (Nat.lt_of_lt_of_le inside first.size)).trans (first.rules id inside)

variable (continues : builders.Continues later)
include continues

theorem fieldName? (inside : id < builders.size) : later.fieldName? id = builders.fieldName? id := by
  rw [Builders.fieldName?, Builders.fieldName?, continues.get id inside]

theorem links (inside : id < builders.size) : later.links id = builders.links id := by
  rw [Builders.links, Builders.links, continues.get id inside]

theorem holdsItem {item : BuilderId} (holds : builders.HoldsItem id item) : later.HoldsItem id item := by
  unfold HoldsItem
  rw [continues.get id holds.inside]
  exact holds

theorem endsFrom (ends : later.EndsFrom id) : builders.EndsFrom id := fun list leads circle =>
  ends list (Relation.ReflTransGen.mono (fun _ _ => continues.holdsItem) _ _ leads)
    (Relation.TransGen.mono (fun _ _ => continues.holdsItem) _ _ circle)

theorem superclass (range : builders.InRange) (inside : id < builders.size) :
    style.superclass later id = style.superclass builders id := by
  unfold Style.superclass
  rw [continues.get id inside]
  cases found : (builders.get id).base with
  | none => rfl
  | some base => simp only [continues.get base (range id inside base (mem_links.mpr (Or.inl found)))]

variable (range : builders.InRange)
include range

theorem reachable (inside : id < builders.size) : later.reachable id = builders.reachable id := by
  have explores := (builders.reachable_explores id).congr (range id inside) range fun _ => continues.links
  rw [← continues.links inside] at explores
  exact (later.reachable_explores id).unique explores

theorem closureFrom (inside : ∀ root ∈ roots, root < builders.size) :
    later.closureFrom found roots = builders.closureFrom found roots := by
  induction roots generalizing found with
  | nil => rfl
  | cons root rest ih =>
    obtain ⟨first, others⟩ := List.forall_mem_cons.mp inside
    rw [Builders.closureFrom, Builders.closureFrom, continues.reachable range first]
    split
    · exact ih others
    · exact ih others

theorem closure (inside : ∀ root ∈ roots, root < builders.size) : later.closure roots = builders.closure roots :=
  continues.closureFrom range inside

theorem layers {layers : Nat} {name : String} (layered : style.Layers builders id layers name)
    (inside : id < builders.size) :
    style.Layers later id layers name := by
  induction layered with
  | @single id single =>
    rw [← continues.get id inside] at single ⊢
    exact .single single
  | @untyped id list item =>
    rw [← continues.get id inside] at list item
    exact .untyped list item
  | @item id inner layers name holds layered ih =>
    have linked : inner ∈ builders.links id := mem_links.mpr (Or.inr (Or.inl holds.2))
    exact .item (continues.holdsItem holds) (ih (range id inside inner linked))

/-- Where lists end, it does not matter that types may be as deep as there are builders, and otherwise no depth
is enough. -/
theorem typeName? (inside : id < builders.size) : style.typeName? later id = style.typeName? builders id := by
  by_cases ends : builders.EndsFrom id
  · obtain ⟨layers, few, name, layered, written⟩ := Style.typeName?_of_endsFrom style range ends inside
    rw [written]
    exact (continues.layers range layered inside).typeNameWithin? (few.trans continues.size)
  · have without : style.typeName? builders id = none :=
      Option.not_isSome_iff_eq_none.mp fun written => ends ((Style.isSome_typeName?_iff range inside).mp written)
    rw [without]
    refine Option.eq_none_iff_forall_ne_some.mpr fun text written => ?_
    obtain ⟨_, _, _, layered, _⟩ := Style.layers_of_typeNameWithin? written
    exact ends (continues.endsFrom layered.endsFrom)

theorem accessors? {fields : List BuilderId} (inside : ∀ field ∈ fields, field < builders.size) :
    Rendering.accessors? style later fields = Rendering.accessors? style builders fields := by
  have named : Rendering.named later fields = Rendering.named builders fields :=
    List.filter_congr fun field member => by rw [continues.fieldName? (inside field member)]
  rw [Rendering.accessors?, Rendering.accessors?, named]
  refine mapM_congr_left fun field member => ?_
  have within := inside field (List.mem_of_mem_filter member)
  rw [Rendering.accessor?, Rendering.accessor?, continues.fieldName? within, continues.typeName? range within]

theorem ofBuilder? (inside : id < builders.size) :
    Rendering.ofBuilder? style later id = Rendering.ofBuilder? style builders id := by
  have within : ∀ field ∈ (builders.get id).fields, field < builders.size := fun field member =>
    range id inside field (mem_links.mpr (Or.inr (Or.inr member)))
  have unnamed : Rendering.unnamed later (builders.get id).fields =
    Rendering.unnamed builders (builders.get id).fields :=
    List.filter_congr fun field member => by rw [continues.fieldName? (within field member)]
  simp only [Rendering.ofBuilder?, Rendering.ofClass, continues.get id inside, continues.rules id inside,
    continues.accessors? range within, continues.superclass range inside, unnamed]

theorem ofBuilders? {ids : List BuilderId} (inside : ∀ id ∈ ids, id < builders.size) (style : Style) :
    Rendering.ofBuilders? style later ids = Rendering.ofBuilders? style builders ids := by
  have defined : ids.filter (Rendering.isDefined later) = ids.filter (Rendering.isDefined builders) :=
    List.filter_congr fun id member => by rw [Rendering.isDefined, Rendering.isDefined,
      continues.get id (inside id member)]
  rw [Rendering.ofBuilders?, Rendering.ofBuilders?, defined]
  exact mapM_congr_left fun id member => continues.ofBuilder? range (inside id (List.mem_of_mem_filter member))

end Continues

end Builders
end SchemaClasses
