import SchemaClasses.Proofs.Definition.TagTable
import SchemaClasses.Proofs.Grouping
import SchemaClasses.Proofs.Schema.Declarations

/-! Elements of one name. The table of tags goes by whole names, and of the elements directly in the schema that
have a name it keeps the last. Instances go by local names, and the first element of a local name declares them.
The two are the same element where the last of the name is the first of its local name. -/

namespace SchemaClasses

theorem lookup_filterMap {ι α : Type} {key? : ι → Option String} {value : ι → α} (things : List ι) (key : String) :
    (things.filterMap fun thing => (key? thing).map (·, value thing)).lookup key =
    (things.find? (key? · = some key)).map value := by
  induction things with
  | nil => rfl
  | cons thing things ih =>
    cases named : key? thing with
    | none => simp [named, ih]
    | some name =>
      by_cases same : name = key
      · simp [named, same]
      · simp [named, same, ih, List.lookup_cons, beq_eq_false_iff_ne.mpr (Ne.symm same)]

namespace Entries
variable {α : Type} {key : String} {value : α}

theorem get?_insertNew (entries : Entries α) (other : String) :
    (entries.insertNew key value).get? other = (entries.get? other).or (if other = key then some value else none) := by
  induction entries with
  | nil =>
    by_cases same : other = key
    · simp [insertNew, alter, get?, same]
    · simp [insertNew, alter, get?, List.lookup_cons, same, beq_eq_false_iff_ne.mpr same]
  | cons first rest ih =>
    obtain ⟨name, old⟩ := first
    simp only [insertNew, get?] at ih ⊢
    rw [alter]
    by_cases own : other = name
    · split <;> simp [own]
    · split
      · next same => simp [List.lookup_cons, own, ← same, beq_eq_false_iff_ne.mpr own]
      · simp [List.lookup_cons, beq_eq_false_iff_ne.mpr own, ih]

theorem mem_ofList_iff [Inhabited α] {pairs : List (String × α)} :
    (key, value) ∈ ofList pairs ↔ pairs.reverse.lookup key = some value := by
  have known : key ∈ pairs.map Prod.fst ↔ (pairs.reverse.lookup key).isSome := by
    simp only [List.lookup_isSome_iff, List.mem_reverse, List.mem_map, beq_iff_eq, eq_comm (a := key)]
  simp only [ofList_eq, List.mem_map, List.mem_eraseDups, Prod.mk.injEq]
  constructor
  · rintro ⟨_, ⟨pair, listed, rfl⟩, rfl, rfl⟩
    obtain ⟨value, found⟩ := Option.isSome_iff_exists.mp (known.mp (List.mem_map_of_mem listed))
    rw [found, Option.getD_some]
  · intro found
    obtain ⟨pair, listed, same⟩ := List.mem_map.mp (known.mpr (found ▸ rfl))
    exact ⟨key, ⟨pair, listed, same⟩, rfl, by rw [found, Option.getD_some]⟩

end Entries

namespace Schema

def bearers (schema : Schema) (name : String) : List NodeId :=
  ((schema.node schema.root).childrenOf .element).filter fun id => (schema.node id).name? = some name

def namesakes (schema : Schema) (tag : String) : List NodeId :=
  ((schema.node schema.root).childrenOf .element).filter fun id =>
    (schema.node id).name?.map Name.localPart = some (Name.localPart tag)

variable {schema : Schema} {before after : Derivation} {name : String}

/-- What was declared before keeps its place, and then the first node of a name counts. -/
theorem get?_declareAll {nodes : Nodes} (ids : List NodeId) (declarations : Entries NodeId) (key : String) :
    (ids.foldl (declare nodes) declarations).get? key =
      (declarations.get? key).or (ids.find? fun id => (nodes.get id).name?.map Name.localPart = some key) := by
  induction ids generalizing declarations with
  | nil => rw [List.foldl_nil, List.find?_nil, Option.or_none]
  | cons id ids ih =>
    rw [List.foldl_cons, ih, declare]
    cases named : (nodes.get id).name? with
    | none => simp [named]
    | some name =>
      by_cases same : Name.localPart name = key
      · simp [named, same, Entries.get?_insertNew]
      · simp [named, same, Ne.symm same, Entries.get?_insertNew]

/-- An element is declared by the first one of its local name that stands directly in the schema, if there is one. -/
theorem Loaded.declaration?_eq (loaded : schema.Loaded) {first : NodeId}
    (found : (schema.namesakes name).head? = some first) :
    schema.declaration? name = some first := by
  rw [namesakes, List.head?_filter] at found
  have top : (((schema.nodes.get schema.root).childrenOf .element).find? fun id =>
      (schema.nodes.get id).name?.map Name.localPart = some (Name.localPart name)) = some first := found
  rw [declaration?, loaded.declarations, declarationsOf, get?_declareAll, List.find?_append, top]
  rfl

theorem namesakes_of_bearers {last : NodeId} (member : last ∈ schema.bearers name) : last ∈ schema.namesakes name := by
  obtain ⟨top, named⟩ := List.mem_filter.mp member
  refine List.mem_filter.mpr ⟨top, ?_⟩
  rw [of_decide_eq_true named, Option.map_some]
  exact decide_eq_true rfl

section Loaded
variable (loaded : schema.Loaded)
include loaded

theorem builder_gives_iff (tenable : before.Tenable schema.nodes) {id : NodeId} (inside : id < schema.nodes.size)
    {builder : BuilderId} :
    (schema.builder id).Gives before builder before ↔ before.builder? id = some builder := by
  constructor
  · exact builder_found loaded inside tenable.fits
  · intro found
    obtain ⟨depth, deep⟩ : ∃ depth, schema.depth = depth + 1 :=
      Nat.exists_eq_add_one.mpr (Nat.mul_pos (Nat.succ_pos _) (Nat.succ_pos _))
    rw [Schema.builder, recursion, deep]
    exact Derive.derive_known found

/-- The table holds the names of elements with their builders, one put into it after the other. -/
private theorem tagged_eq {ids : List NodeId} (inside : ∀ id ∈ ids, id < schema.nodes.size)
    {start tags : Entries BuilderId} (tenable : before.Tenable schema.nodes)
    (gives : (ids.foldlM schema.tagged start).Gives before tags after) :
    (∀ id ∈ ids, (schema.node id).name?.isSome → (after.builder? id).isSome) ∧
      tags = (ids.filterMap fun id => (schema.node id).name?.map (·, (after.builder? id).getD default)).foldl
        (fun entries pair => entries.insert pair.1 pair.2) start := by
  induction ids generalizing start before with
  | nil =>
    obtain ⟨rfl, rfl⟩ := gives.pure
    exact ⟨List.forall_mem_nil _, rfl⟩
  | cons id ids ih =>
    obtain ⟨first, others⟩ := List.forall_mem_cons.mp inside
    rw [List.foldlM_cons] at gives
    obtain ⟨extended, middle, asked, rest⟩ := gives.bind
    obtain ⟨unnamed, rfl, rfl⟩ | ⟨name, builder, named, rfl, given⟩ := tagged_gives asked
    · obtain ⟨derived, same⟩ := ih others tenable rest
      refine ⟨List.forall_mem_cons.mpr ⟨fun some => ?_, derived⟩, ?_⟩
      · rw [unnamed] at some
        cases some
      · rw [List.filterMap_cons, unnamed]
        exact same
    · obtain ⟨held, _⟩ := (node_steady loaded first).grows tenable given
      obtain ⟨_, further⟩ := (tagged_steady loaded others _).grows held rest
      have found : after.builder? id = some builder :=
        further.memo id builder (builder_found loaded first tenable.fits given)
      obtain ⟨derived, same⟩ := ih others held rest
      refine ⟨List.forall_mem_cons.mpr ⟨fun _ => found ▸ rfl, derived⟩, ?_⟩
      rw [List.filterMap_cons, named, found]
      exact same

theorem tags_derived (tenable : before.Tenable schema.nodes) {tags : Entries BuilderId}
    (gives : schema.tags.Gives before tags after) {id : NodeId} (member : id ∈ schema.namesakes name) :
    (after.builder? id).isSome := by
  obtain ⟨top, named⟩ := List.mem_filter.mp member
  obtain ⟨derived, _⟩ := tagged_eq loaded (fun _ member => loaded.formed.child_lt member) tenable gives
  apply derived id top
  rw [decide_eq_true_eq, Option.map_eq_some_iff] at named
  obtain ⟨own, same, _⟩ := named
  rw [same, Option.isSome_some]

theorem mem_tags_iff (tenable : before.Tenable schema.nodes) {tags : Entries BuilderId}
    (gives : schema.tags.Gives before tags after) {builder : BuilderId} : (name, builder) ∈ tags ↔
      ∃ last, (schema.bearers name).getLast? = some last ∧ after.builder? last = some builder := by
  obtain ⟨derived, rfl⟩ := tagged_eq loaded (fun _ member => loaded.formed.child_lt member) tenable gives
  change (name, builder) ∈ Entries.ofList _ ↔ _
  rw [Entries.mem_ofList_iff, ← List.filterMap_reverse, lookup_filterMap, bearers, List.getLast?_filter,
    Option.map_eq_some_iff]
  refine exists_congr fun last => and_congr_right fun found => ?_
  have named := List.find?_some found
  rw [decide_eq_true_eq] at named
  have listed := List.mem_reverse.mp (List.mem_of_find?_eq_some found)
  obtain ⟨own, known⟩ := Option.isSome_iff_exists.mp (derived last listed (named ▸ rfl))
  rw [known, Option.getD_some, Option.some.injEq]

/-- Whatever was asked for before, if no references that are used once lead in a circle there is a table of
tags. Under each name it holds the builder of the last element that has the name, and the builder of the element
that the name is declared by is the same where that element, the first one of the local name, is the last of the
name. -/
theorem tags_last (acyclic : schema.nodes.Acyclic) {requests : List Request}
    (inside : ∀ request ∈ requests, request.Inside schema) {replies : List Reply}
    (asked : (schema.replies requests).Gives schema.derivation replies before) :
    ∃ tags after, schema.tags.Gives before tags after ∧ ∀ name,
      (∀ builder, (name, builder) ∈ tags ↔ ∃ last, (schema.bearers name).getLast? = some last ∧
        (schema.builder last).Gives after builder after) ∧
      ∀ last, (schema.bearers name).getLast? = some last →
        ∃ first declared, (schema.namesakes name).head? = some first ∧
        schema.declaration? name = some first ∧ (schema.builder first).Gives after declared after ∧
          (first = last → (name, declared) ∈ tags) := by
  obtain ⟨tenable, _⟩ := (replies_safe loaded inside).grows tenable_start asked
  obtain ⟨tags, after, gives⟩ := (tags_steady loaded).total acyclic tenable
  obtain ⟨held, _⟩ := (tags_steady loaded).grows tenable gives
  have top {tag : String} {id : NodeId} (member : id ∈ schema.namesakes tag) : id < schema.nodes.size :=
    loaded.formed.child_lt (List.mem_filter.mp member).1
  have listed (name : String) (builder : BuilderId) : (name, builder) ∈ tags ↔
      ∃ last, (schema.bearers name).getLast? = some last ∧ (schema.builder last).Gives after builder after := by
    rw [mem_tags_iff loaded tenable gives]
    refine exists_congr fun last => and_congr_right fun found => ?_
    exact (builder_gives_iff loaded held (top (namesakes_of_bearers (List.mem_of_getLast? found)))).symm
  refine ⟨tags, after, gives, fun name => ⟨listed name, fun last found => ?_⟩⟩
  have named := namesakes_of_bearers (List.mem_of_getLast? found)
  obtain ⟨first, leads⟩ := Option.isSome_iff_exists.mp (List.isSome_head?.mpr (List.ne_nil_of_mem named))
  have member := List.mem_of_head? leads
  obtain ⟨declared, known⟩ := Option.isSome_iff_exists.mp (tags_derived loaded tenable gives member)
  have answers := (builder_gives_iff loaded held (top member)).mpr known
  exact ⟨first, declared, leads, loaded.declaration?_eq leads, answers,
    fun same => (listed name declared).mpr ⟨last, found, same ▸ answers⟩⟩

end Loaded

end Schema

/-- Two elements `a`, the first of strings and the second of whole numbers, and an element `b` between them. -/
def Document.twins : Document where
  elements := #[
    { name := "schema", children := #[1, 2, 3] },
    { name := "element", attributes := [("name", "a"), ("type", "string")], parent := some 0 },
    { name := "element", attributes := [("name", "b"), ("type", "string")], parent := some 0 },
    { name := "element", attributes := [("name", "a"), ("type", "integer")], parent := some 0 }]
  root := some 0

namespace Schema

def twins : Schema where
  nodes := #[
    { construct := .schema none, children := [⟨.element, 1⟩, ⟨.element, 2⟩, ⟨.element, 3⟩] },
    { parent := some 0, construct := .element { name := some "a", type := some (.builtin .string) } },
    { parent := some 0, construct := .element { name := some "b", type := some (.builtin .string) } },
    { parent := some 0, construct := .element { name := some "a", type := some (.builtin .integer) } }]
  root := 0
  declarations := [("a", 1), ("b", 2)]

set_option maxRecDepth 8000 in
theorem twins_loaded : twins.Loaded :=
  ⟨{}, .twins, Array.replicate 4 none, by cbv⟩

theorem twins_acyclic : twins.nodes.Acyclic :=
  Nodes.acyclic_of_all (by decide)

theorem tags_last_twins :
    twins.Loaded ∧ twins.nodes.Acyclic ∧ (∀ request ∈ [Request.classBuilders], request.Inside twins) ∧
    ∃ replies before tags after, (twins.replies [.classBuilders]).Gives twins.derivation replies before ∧
      twins.tags.Gives before tags after ∧
      ∃ declared, twins.declaration? "b" = some 2 ∧ (twins.builder 2).Gives after declared after ∧
        ("b", declared) ∈ tags := by
  have inside : ∀ request ∈ [Request.classBuilders], request.Inside twins := List.forall_mem_singleton.mpr trivial
  obtain ⟨replies, before, asked⟩ := (replies_answered_iff twins_loaded twins_acyclic inside tenable_start).mpr
    (.of_derives (List.forall_mem_singleton.mpr trivial))
  obtain ⟨tags, after, gives, each⟩ := tags_last twins_loaded twins_acyclic inside asked
  obtain ⟨first, declared, _, declares, answers, agrees⟩ := (each "b").2 2 (by decide)
  have own : twins.declaration? "b" = some 2 := by decide
  obtain rfl := Option.some.inj (declares.symm.trans own)
  exact ⟨twins_loaded, twins_acyclic, inside, replies, before, tags, after, asked, gives, declared, own,
    answers, agrees rfl⟩

/-- If two elements have one name the table holds the builder of the second, and the name is declared by the first. -/
theorem tag_overwritten :
    twins.Loaded ∧ twins.nodes.Acyclic ∧ ∃ tags after, twins.tags.Gives twins.derivation tags after ∧
    ∃ builder declared, ("a", builder) ∈ tags ∧ twins.declaration? "a" = some 1 ∧
    (twins.builder 1).Gives after declared after ∧ declared ≠ builder := by
  have outcome : (twins.tags.run twins.derivation).map (fun outcome => (outcome.1, outcome.2.builder? 1)) =
      some ([("a", 2), ("b", 1)], some 0) := by
    cbv
  obtain ⟨⟨tags, after⟩, gives, same⟩ := Option.map_eq_some_iff.mp outcome
  obtain ⟨rfl, known⟩ := Prod.mk.inj same
  obtain ⟨held, _⟩ := (tags_steady twins_loaded).grows tenable_start gives
  exact ⟨twins_loaded, twins_acyclic, _, after, gives, 2, 0, List.mem_cons_self, by decide,
    (builder_gives_iff twins_loaded held (by decide)).mpr known, by decide⟩

end Schema
end SchemaClasses
