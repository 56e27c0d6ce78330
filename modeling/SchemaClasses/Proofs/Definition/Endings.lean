import SchemaClasses.Proofs.Builder.Exploration
import SchemaClasses.Definition.Rendering

/-! Which definitions can be written down. The type of a field has an end unless the field stands for a list that holds
itself, or leads to one that does. -/

namespace SchemaClasses

section Options
variable {α β : Type} {f : α → Option β} {items : List α} {made : List β}

theorem mapM_eq_some_iff : items.mapM f = some made ↔ items.map f = made.map some := by
  induction items generalizing made with
  | nil => cases made <;> simp
  | cons item items ih =>
    rw [List.mapM_cons, List.map_cons]
    cases found : f item with
    | none => cases made <;> simp
    | some first =>
      cases made with
      | nil => simp [Option.bind_eq_some_iff]
      | cons head made => simp [← ih, Option.bind_eq_some_iff, and_comm]

theorem isSome_mapM_iff : (items.mapM f).isSome ↔ ∀ item ∈ items, (f item).isSome := by
  induction items with
  | nil => simp
  | cons item items ih =>
    rw [List.mapM_cons, List.forall_mem_cons, ← ih]
    cases f item <;> cases items.mapM f <;> simp

theorem mapM_congr_left {g : α → Option β} (same : ∀ item ∈ items, f item = g item) : items.mapM f = items.mapM g := by
  ext made
  rw [mapM_eq_some_iff, mapM_eq_some_iff, List.map_congr_left same]

/-- What is made of some items is what is made of all, where nothing is made of the others. -/
theorem filterMap_of_mapM {among : α → Bool} (none : ∀ item, among item = false → f item = none)
    (all : (items.filter among).mapM f = some made) : items.filterMap f = made := by
  have some := mapM_eq_some_iff.mp all
  calc items.filterMap f = (items.filter among).filterMap f := by
        rw [List.filterMap_filter]
        exact List.filterMap_congr fun item _ => by cases is : among item <;> simp [none, is]
    _ = ((items.filter among).map f).filterMap id := by rw [List.filterMap_map, Function.id_comp]
    _ = made := by rw [some, List.filterMap_map]; simp

end Options

namespace Builders

def HoldsItem (builders : Builders) (id item : BuilderId) : Prop :=
  (builders.get id).isList = true ∧ (builders.get id).item = some item

theorem HoldsItem.inside {builders : Builders} {id item : BuilderId} (holds : builders.HoldsItem id item) :
    id < builders.size := by
  rcases Nat.lt_or_ge id builders.size with inside | outside
  · exact inside
  · have held := holds.2
    rw [get_outside outside] at held
    cases held

/-- No list is an item of itself. -/
def ItemsEnd (builders : Builders) : Prop :=
  ∀ id, ¬Relation.TransGen builders.HoldsItem id id

/-- No list that a builder stands for or holds is an item of itself. -/
def EndsFrom (builders : Builders) (id : BuilderId) : Prop :=
  ∀ list, Relation.ReflTransGen builders.HoldsItem id list → ¬Relation.TransGen builders.HoldsItem list list

theorem EndsFrom.item {builders : Builders} {id item : BuilderId} (ends : builders.EndsFrom id)
    (holds : builders.HoldsItem id item) :
    builders.EndsFrom item :=
  fun list leads => ends list (.head holds leads)

/-- A builder ends where every item that it holds does. -/
theorem EndsFrom.of_items {builders : Builders} {id : BuilderId}
    (ends : ∀ item, builders.HoldsItem id item → builders.EndsFrom item) :
    builders.EndsFrom id := by
  intro list leads circle
  rcases leads.cases_head with rfl | ⟨item, holds, rest⟩
  · obtain ⟨item, holds, back⟩ := Relation.TransGen.head'_iff.mp circle
    exact ends item holds item .refl (.tail' back holds)
  · exact ends item holds list rest circle

theorem itemsEnd_of_ascending {builders : Builders}
    (ascending : ((List.range builders.size).all fun id => (builders.get id).item.all (id < ·)) = true) :
    builders.ItemsEnd := by
  have step {id item : BuilderId} (holds : builders.HoldsItem id item) : id < item := by
    have ascends := List.all_eq_true.mp ascending id (List.mem_range.mpr holds.inside)
    rw [holds.2] at ascends
    exact of_decide_eq_true ascends
  have larger {id item : BuilderId} (leads : Relation.TransGen builders.HoldsItem id item) : id < item := by
    induction leads with
    | single holds => exact step holds
    | tail _ holds ih => exact ih.trans (step holds)
  exact fun id circle => Nat.lt_irrefl id (larger circle)


/-- The class of a builder, if it has one, has no field whose type has no end. -/
def FieldsEnd (builders : Builders) (id : BuilderId) : Prop :=
  (builders.get id).builtin? = none → (builders.get id).className.isSome →
    ∀ field ∈ (builders.get id).fields, (builders.fieldName? field).isSome → builders.EndsFrom field

end Builders

namespace Style

def vectors : Nat → String → String
  | 0, name => name
  | depth + 1, name => "Vec<" ++ vectors depth name ++ ">"

/-- How many lists a builder stands for, one inside of the other, and the type inside of them. -/
inductive Layers (style : Style) (builders : Builders) : BuilderId → Nat → String → Prop where
  | single {id} (single : (builders.get id).isList = false) :
      Layers style builders id 0
        (((builders.get id).builtin?.map Builtin.label <|> (builders.get id).className).getD style.rootType)
  | untyped {id} (list : (builders.get id).isList = true) (item : (builders.get id).item = none) :
      Layers style builders id 1 style.rootType
  | item {id inner depth name} (holds : builders.HoldsItem id inner) (layers : Layers style builders inner depth name) :
      Layers style builders id (depth + 1) name

variable {style : Style} {builders : Builders} {id : BuilderId}

theorem Layers.endsFrom {layers : Nat} {name : String} (layered : style.Layers builders id layers name) :
    builders.EndsFrom id := by
  induction layered with
  | single single => exact .of_items fun _ holds => absurd (single.symm.trans holds.1) Bool.false_ne_true
  | untyped _ none => exact .of_items fun _ holds => absurd (none.symm.trans holds.2) (Option.some_ne_none _).symm
  | item holds _ ih =>
    refine .of_items fun _ other => ?_
    cases Option.some.inj (holds.2.symm.trans other.2)
    exact ih

section Written
variable {depth : Nat}

theorem typeNameWithin?_single (single : (builders.get id).isList = false) : style.typeNameWithin? builders depth id =
    some (((builders.get id).builtin?.map Builtin.label <|> (builders.get id).className).getD style.rootType) := by
  unfold typeNameWithin?
  simp [single]

theorem typeNameWithin?_zero (list : (builders.get id).isList = true) : style.typeNameWithin? builders 0 id = none := by
  simp [typeNameWithin?, list]

theorem typeNameWithin?_untyped (list : (builders.get id).isList = true) (item : (builders.get id).item = none) :
    style.typeNameWithin? builders (depth + 1) id = some (vectors 1 style.rootType) := by
  simp [typeNameWithin?, list, item, vectors]

theorem typeNameWithin?_item {item : BuilderId} (holds : builders.HoldsItem id item) :
    style.typeNameWithin? builders (depth + 1) id = (style.typeNameWithin? builders depth item).map (vectors 1) := by
  simp [typeNameWithin?, holds.1, holds.2, vectors]

theorem Layers.typeNameWithin? {layers : Nat} {name : String} (layered : style.Layers builders id layers name)
    (enough : layers ≤ depth) : style.typeNameWithin? builders depth id = some (vectors layers name) := by
  induction layered generalizing depth with
  | single single => exact typeNameWithin?_single single
  | untyped list item =>
    obtain ⟨rest, rfl⟩ := Nat.exists_eq_add_of_le' enough
    exact typeNameWithin?_untyped list item
  | @item id inner layers name holds layered ih =>
    obtain ⟨rest, rfl⟩ := Nat.exists_eq_add_of_le' enough
    rw [← Nat.add_assoc, typeNameWithin?_item holds, ih (Nat.le_add_left _ _)]
    rfl

theorem layers_of_typeNameWithin? {text : String} (written : style.typeNameWithin? builders depth id = some text) :
    ∃ layers ≤ depth, ∃ name, style.Layers builders id layers name ∧ text = vectors layers name := by
  induction depth generalizing id text with
  | zero =>
    cases list : (builders.get id).isList with
    | false =>
      cases (typeNameWithin?_single list).symm.trans written
      exact ⟨0, Nat.le_refl _, _, .single list, rfl⟩
    | true => cases (typeNameWithin?_zero list).symm.trans written
  | succ depth ih =>
    cases list : (builders.get id).isList with
    | false =>
      cases (typeNameWithin?_single list).symm.trans written
      exact ⟨0, Nat.zero_le _, _, .single list, rfl⟩
    | true =>
      cases item : (builders.get id).item with
      | none =>
        cases (typeNameWithin?_untyped list item).symm.trans written
        exact ⟨1, Nat.le_add_left _ _, _, .untyped list item, rfl⟩
      | some inner =>
        obtain ⟨inside, found, rfl⟩ :=
          Option.map_eq_some_iff.mp ((typeNameWithin?_item ⟨list, item⟩).symm.trans written)
        obtain ⟨layers, few, name, layered, rfl⟩ := ih found
        exact ⟨layers + 1, Nat.succ_le_succ few, name, .item ⟨list, item⟩ layered, rfl⟩

end Written

/-- The lists that lead to a builder are different, so they are no more than there are builders. -/
private theorem layers_behind (style : Style) (range : builders.InRange) (room : Nat) :
    ∀ (path : List BuilderId) (id : BuilderId), builders.EndsFrom id → path.Nodup →
    (∀ other ∈ path, other < builders.size) →
      (∀ other ∈ path, Relation.TransGen builders.HoldsItem other id) → id < builders.size →
        builders.size ≤ path.length + room → ∃ layers ≤ room, ∃ name, style.Layers builders id layers name := by
  induction room with
  | zero =>
    intro path id ends distinct within leads inside enough
    have new : id ∉ path := fun member => ends id .refl (leads id member)
    have all : ∀ other ∈ id :: path, other < builders.size := List.forall_mem_cons.mpr ⟨inside, within⟩
    have fewer := (List.subperm_of_subset (List.nodup_cons.mpr ⟨new, distinct⟩) fun other member =>
      List.mem_range.mpr (all other member)).length_le
    simp only [List.length_cons, List.length_range] at fewer
    omega
  | succ room ih =>
    intro path id ends distinct within leads inside enough
    cases list : (builders.get id).isList with
    | false => exact ⟨0, Nat.zero_le _, _, .single list⟩
    | true =>
      cases item : (builders.get id).item with
      | none => exact ⟨1, Nat.le_add_left _ _, _, .untyped list item⟩
      | some inner =>
        have holds : builders.HoldsItem id inner := ⟨list, item⟩
        have new : id ∉ path := fun member => ends id .refl (leads id member)
        have further : ∀ other ∈ id :: path, Relation.TransGen builders.HoldsItem other inner :=
          List.forall_mem_cons.mpr ⟨.single holds, fun other member => (leads other member).tail holds⟩
        obtain ⟨layers, few, name, layered⟩ := ih (id :: path) inner (ends.item holds)
          (List.nodup_cons.mpr ⟨new, distinct⟩) (List.forall_mem_cons.mpr ⟨inside, within⟩) further
          (range id inside inner (Builders.mem_links.mpr (Or.inr (Or.inl item))))
            (by simp only [List.length_cons]; omega)
        exact ⟨layers + 1, Nat.succ_le_succ few, name, .item holds layered⟩

/-- Where it has an end, the type of a field is written out in full. -/
theorem typeName?_of_endsFrom (style : Style) (range : builders.InRange) (ends : builders.EndsFrom id)
    (inside : id < builders.size) :
    ∃ layers ≤ builders.size, ∃ name, style.Layers builders id layers name ∧
      style.typeName? builders id = some (vectors layers name) := by
  obtain ⟨layers, few, name, layered⟩ := layers_behind style range builders.size [] id ends .nil (List.forall_mem_nil _)
    (List.forall_mem_nil _) inside (by simp)
  exact ⟨layers, few, name, layered, layered.typeNameWithin? few⟩

/-- The type of a field can be written down if and only if it has an end. -/
theorem isSome_typeName?_iff (range : builders.InRange) (inside : id < builders.size) :
    (style.typeName? builders id).isSome ↔ builders.EndsFrom id := by
  constructor
  · intro written
    obtain ⟨text, found⟩ := Option.isSome_iff_exists.mp written
    obtain ⟨_, _, _, layered, _⟩ := layers_of_typeNameWithin? found
    exact layered.endsFrom
  · intro ends
    obtain ⟨_, _, _, _, written⟩ := typeName?_of_endsFrom style range ends inside
    exact Option.isSome_of_eq_some written

end Style

namespace Rendering
variable {style : Style} {builders : Builders} {id : BuilderId} {ids fields : List BuilderId}
  {accessors : List Accessor}

theorem accessor?_eq_some_iff {field : BuilderId} {accessor : Accessor} :
    accessor? style builders field = some accessor ↔
    builders.fieldName? field = some accessor.name ∧ style.typeName? builders field = some accessor.typeName := by
  cases accessor
  simp [accessor?, Option.bind_eq_some_iff]

theorem isSome_accessor?_iff {field : BuilderId} : (accessor? style builders field).isSome ↔
    (builders.fieldName? field).isSome ∧ (style.typeName? builders field).isSome := by
  cases named : builders.fieldName? field <;> cases typed : style.typeName? builders field <;>
    simp [accessor?, named, typed]

theorem accessors?_eq (written : accessors? style builders fields = some accessors) :
    accessors = fields.filterMap (accessor? style builders) :=
  (filterMap_of_mapM (fun field unnamed => by simp_all [accessor?]) written).symm

theorem mem_accessors? (written : accessors? style builders fields = some accessors) {accessor : Accessor} :
    accessor ∈ accessors ↔ ∃ field ∈ fields, accessor? style builders field = some accessor := by
  rw [accessors?_eq written, List.mem_filterMap]

theorem isSome_accessors?_iff_typed : (accessors? style builders fields).isSome ↔
    ∀ field ∈ fields, (builders.fieldName? field).isSome → (style.typeName? builders field).isSome := by
  rw [accessors?, isSome_mapM_iff]
  simp only [named, List.mem_filter, isSome_accessor?_iff, and_imp]
  exact forall₂_congr fun field _ => ⟨fun both called => (both called).2, fun typed called => ⟨called, typed called⟩⟩

theorem accessors?_names (written : accessors? style builders fields = some accessors) :
    accessors.map Accessor.name = fields.filterMap builders.fieldName? := by
  rw [accessors?_eq written, List.map_filterMap]
  refine List.filterMap_congr fun field member => ?_
  cases called : builders.fieldName? field with
  | none => simp [accessor?, called]
  | some name =>
    have typed := isSome_accessors?_iff_typed.mp (Option.isSome_of_eq_some written) field member
      (Option.isSome_of_eq_some called)
    obtain ⟨type, typed⟩ := Option.isSome_iff_exists.mp typed
    simp [accessor?, called, typed]

theorem isSome_accessors?_iff (range : builders.InRange) (inside : ∀ field ∈ fields, field < builders.size) :
    (accessors? style builders fields).isSome ↔
      ∀ field ∈ fields, (builders.fieldName? field).isSome → builders.EndsFrom field := by
  rw [isSome_accessors?_iff_typed]
  exact forall₂_congr fun field member => imp_congr_right fun _ =>
    Style.isSome_typeName?_iff range (inside field member)

/-- A definition is an alias, or it is that of a class with accessors for its fields. -/
theorem ofBuilder?_eq_some_iff {rendering : Rendering} : ofBuilder? style builders id = some rendering ↔
    (∃ type, (builders.get id).builtin? = some type ∧ rendering = ofBuiltin style type) ∨
      (builders.get id).builtin? = none ∧ ∃ className accessors, (builders.get id).className = some className ∧
        accessors? style builders (builders.get id).fields = some accessors ∧
          rendering = ofClass style builders id className accessors := by
  unfold ofBuilder?
  cases (builders.get id).builtin? with
  | some type => simp [eq_comm]
  | none => simp [Option.bind_eq_some_iff, @eq_comm _ rendering]

theorem ofBuilder?_of_not_isDefined (undefined : isDefined builders id = false) :
    ofBuilder? style builders id = none := by
  simp only [isDefined, Bool.or_eq_false_iff, Option.isSome_eq_false_iff, Option.isNone_iff_eq_none] at undefined
  simp [ofBuilder?, undefined.1, undefined.2]

/-- The definition of a builder can be written down if and only if the types of its fields have an end. -/
theorem isSome_ofBuilder?_iff (range : builders.InRange) (inside : id < builders.size)
    (defined : isDefined builders id) :
    (ofBuilder? style builders id).isSome ↔ builders.FieldsEnd id := by
  have within : ∀ field ∈ (builders.get id).fields, field < builders.size := fun field member =>
    range id inside field (Builders.mem_links.mpr (Or.inr (Or.inr member)))
  rw [Builders.FieldsEnd, ← @isSome_accessors?_iff style builders _ range within]
  unfold ofBuilder?
  cases builtin : (builders.get id).builtin? with
  | some type => simp
  | none =>
    cases called : (builders.get id).className with
    | none => simp [isDefined, builtin, called] at defined
    | some className => cases accessors? style builders (builders.get id).fields <;> simp

theorem ofBuilders?_eq {renderings : List Rendering} (written : ofBuilders? style builders ids = some renderings) :
    renderings = ids.filterMap (ofBuilder? style builders) :=
  (filterMap_of_mapM (fun _ => ofBuilder?_of_not_isDefined) written).symm

theorem isSome_ofBuilder?_of_mem (written : (ofBuilders? style builders ids).isSome) (member : id ∈ ids)
    (defined : isDefined builders id) : (ofBuilder? style builders id).isSome :=
  isSome_mapM_iff.mp written id (List.mem_filter.mpr ⟨member, defined⟩)

/-- Definitions can be written down if and only if none of their classes has a field whose type has no end. -/
theorem isSome_ofBuilders?_iff (range : builders.InRange) (inside : ∀ id ∈ ids, id < builders.size) :
    (ofBuilders? style builders ids).isSome ↔ ∀ id ∈ ids, builders.FieldsEnd id := by
  rw [ofBuilders?, isSome_mapM_iff]
  simp only [List.mem_filter, and_imp]
  refine forall₂_congr fun id member => ?_
  cases defined : isDefined builders id with
  | true => simp [isSome_ofBuilder?_iff range (inside id member) defined]
  | false =>
    simp only [Bool.false_eq_true, false_implies, true_iff]
    intro _ named
    simp [isDefined, named] at defined

end Rendering
end SchemaClasses
