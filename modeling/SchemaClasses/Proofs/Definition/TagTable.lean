import SchemaClasses.CommandLine
import SchemaClasses.Proofs.Definition.Precedence
import SchemaClasses.Proofs.Derivation.Determinism
import SchemaClasses.Proofs.Derivation.Order

/-! The table of tags beside the definitions of a schema. Both are made from a derivation that starts from nothing, and
definitions begin with the same elements. But an element of a built-in type is listed with a class of its own, and has
the definition of its type. -/

namespace SchemaClasses

namespace Entries
variable {α : Type} {entries : Entries α} {key : String} {value : α}

theorem mem_insert {entry : String × α} (listed : entry ∈ entries.insert key value) :
    entry ∈ entries ∨ entry = (key, value) := by
  rw [insert] at listed
  induction entries with
  | nil => exact Or.inr (List.mem_singleton.mp listed)
  | cons first rest ih =>
    rw [alter] at listed
    split at listed
    · next same =>
      rcases List.mem_cons.mp listed with rfl | behind
      · exact Or.inr (by rw [same])
      · exact Or.inl (List.mem_cons_of_mem _ behind)
    · rcases List.mem_cons.mp listed with rfl | behind
      · exact Or.inl List.mem_cons_self
      · exact (ih behind).imp_left (List.mem_cons_of_mem _)

end Entries

theorem Nodes.parts_of_schema {nodes : Nodes} {id : NodeId} (schema : nodes.kindOf id = .schema) :
    nodes.parts id = ((nodes.get id).childrenOf .element).map .leaf ++
      ((nodes.get id).childrenOf .complexType ++ (nodes.get id).childrenOf .simpleType).map .leaf := by
  cases construct : (nodes.get id).construct with
  | schema =>
    rw [parts]
    simp only [construct, List.map_append, List.append_assoc]
  | _ => simp [kindOf, Node.kind, construct, Construct.kind] at schema

/-- What a builder is listed with, and what it is defined by. -/
structure Builder.Listed (builder : Builder) (definitions : List Definition) : Prop where
  builtin : ∀ type, builder.builtin? = some type → ((Collection.ofList definitions).find? type.label).isSome
  label : builder.builtin? = none ∨ builder.className = none → Outcome.classLabel builder ≠ "-" →
    ((Collection.ofList definitions).find? (Outcome.classLabel builder)).isSome

theorem Builder.Listed.alike {builder other : Builder} {definitions : List Definition}
    (listed : builder.Listed definitions) (target : builder.target = other.target)
    (className : builder.className = other.className) : other.Listed definitions := by
  have builtin : builder.builtin? = other.builtin? := by rw [Builder.builtin?, target, Builder.builtin?]
  have label : Outcome.classLabel builder = Outcome.classLabel other := by
    rw [Outcome.classLabel, builtin, className, Outcome.classLabel]
  exact ⟨builtin ▸ listed.builtin, builtin ▸ className ▸ label ▸ listed.label⟩

namespace Rendering
variable {style : Style} {builders : Builders} {ids : List BuilderId} {id : BuilderId}

theorem find?_definitions (member : id ∈ ids) {rendering : Rendering}
    (rendered : ofBuilder? style builders id = some rendering) :
    ((Collection.ofList (definitions style builders ids)).find? rendering.definition.name).isSome := by
  rw [Collection.find?_ofList, List.find?_isSome]
  exact ⟨_, List.mem_map_of_mem (List.mem_filterMap.mpr ⟨id, member, rendered⟩), beq_self_eq_true _⟩

/-- A builder that is rendered is listed with the name of a definition, but for a class name beside a built-in type. -/
theorem listed (written : (ofBuilders? style builders ids).isSome) (member : id ∈ ids) :
    (builders.get id).Listed (definitions style builders ids) := by
  have builtin {type : Builtin} (stands : (builders.get id).builtin? = some type) :
      ((Collection.ofList (definitions style builders ids)).find? type.label).isSome := by
    have rendered : ofBuilder? style builders id = some (ofBuiltin style type) := by simp only [ofBuilder?, stands]
    exact find?_definitions member rendered
  refine ⟨fun type => builtin, fun single labelled => ?_⟩
  rw [Outcome.classLabel] at labelled ⊢
  cases stands : (builders.get id).builtin? with
  | some type =>
    rw [single.resolve_left (by simp [stands])]
    exact builtin stands
  | none =>
    cases named : (builders.get id).className with
    | none =>
      rw [stands, named] at labelled
      exact absurd rfl labelled
    | some name =>
      have isClass : (builders.get id).IsClass name := ⟨named, stands⟩
      obtain ⟨_, rendered, rfl⟩ := isClass.written written member
      exact find?_definitions member rendered

end Rendering

namespace Schema

def ElementsNamed (schema : Schema) : Prop :=
  ∀ id ∈ (schema.node schema.root).childrenOf .element, ((schema.node id).name?).isSome

variable {schema : Schema} {before after : Derivation}

/-- An element without a name is passed over, and one with a name is put into the table. -/
theorem tagged_gives {tags result : Entries BuilderId} {id : NodeId}
    (gives : (schema.tagged tags id).Gives before result after) :
    ((schema.node id).name? = none ∧ result = tags ∧ after = before) ∨
      ∃ name builder, (schema.node id).name? = some name ∧ result = tags.insert name builder ∧
      (schema.builder id).Gives before builder after := by
  rw [tagged] at gives
  cases named : (schema.node id).name? with
  | none =>
    rw [named] at gives
    exact Or.inl ⟨rfl, gives.pure⟩
  | some name =>
    rw [named] at gives
    obtain ⟨builder, _, given, last⟩ := gives.bind
    obtain ⟨rfl, rfl⟩ := last.pure
    exact Or.inr ⟨name, builder, rfl, rfl, given⟩

section Loaded
variable (loaded : schema.Loaded)
include loaded

private theorem tagged_found {ids : List NodeId} (inside : ∀ id ∈ ids, id < schema.nodes.size)
    {start tags : Entries BuilderId} (tenable : before.Tenable schema.nodes)
    (gives : (ids.foldlM schema.tagged start).Gives before tags after) :
    ∀ entry ∈ tags, entry ∈ start ∨ ∃ id ∈ ids, (schema.node id).name? = some entry.1 ∧
      after.builder? id = some entry.2 := by
  induction ids generalizing start before with
  | nil =>
    obtain ⟨rfl, rfl⟩ := gives.pure
    exact fun entry listed => Or.inl listed
  | cons id ids ih =>
    obtain ⟨first, others⟩ := List.forall_mem_cons.mp inside
    rw [List.foldlM_cons] at gives
    obtain ⟨extended, middle, asked, rest⟩ := gives.bind
    have step {entry : String × BuilderId} (behind : entry ∈ extended ∨
      ∃ other ∈ ids, (schema.node other).name? = some entry.1 ∧
        after.builder? other = some entry.2) (own : entry ∈ extended → entry ∈ start ∨
          (schema.node id).name? = some entry.1 ∧ after.builder? id = some entry.2) :
        entry ∈ start ∨ ∃ other ∈ id :: ids, (schema.node other).name? = some entry.1 ∧
            after.builder? other = some entry.2 := by
      rcases behind with listed | ⟨other, member, found⟩
      · exact (own listed).imp_right fun found => ⟨id, List.mem_cons_self, found⟩
      · exact Or.inr ⟨other, List.mem_cons_of_mem _ member, found⟩
    obtain ⟨_, rfl, rfl⟩ | ⟨name, builder, named, rfl, given⟩ := tagged_gives asked
    · exact fun entry listed => step (ih others tenable rest entry listed) Or.inl
    · obtain ⟨held, _⟩ := (node_steady loaded first).grows tenable given
      obtain ⟨_, further⟩ := (tagged_steady loaded others _).grows held rest
      have found : after.builder? id = some builder :=
        further.memo id builder (builder_found loaded first tenable.fits given)
      refine fun entry listed => step (ih others held rest entry listed) fun added =>
        (Entries.mem_insert added).imp_right ?_
      rintro rfl
      exact ⟨named, found⟩

theorem tags_found (tenable : before.Tenable schema.nodes) {tags : Entries BuilderId}
    (gives : schema.tags.Gives before tags after) :
    ∀ entry ∈ tags, ∃ id ∈ (schema.node schema.root).childrenOf .element,
      (schema.node id).name? = some entry.1 ∧ after.builder? id = some entry.2 := fun entry listed =>
  (tagged_found loaded (fun _ member => loaded.formed.child_lt member) tenable gives entry listed).resolve_left
    List.not_mem_nil

/-- Where every element has a name, the table is made as the elements of the schema are derived. -/
private theorem tagged_run {ids : List NodeId} (listed : ∀ id ∈ ids, .leaf id ∈ schema.nodes.parts schema.root)
    (inside : ∀ id ∈ ids, id < schema.nodes.size) (named : ∀ id ∈ ids, ((schema.node id).name?).isSome)
    {start tags : Entries BuilderId} (fits : before.Fits schema.nodes)
    (gives : (ids.foldlM schema.tagged start).Gives before tags after) :
    ∃ content made, Run schema.nodes []
    (.parts [schema.root] (ids.map .leaf)) before.stage content after.stage made := by
  induction ids generalizing start before with
  | nil =>
    obtain ⟨_, rfl⟩ := gives.pure
    exact ⟨_, _, .empty⟩
  | cons id ids ih =>
    rw [List.foldlM_cons] at gives
    obtain ⟨extended, middle, asked, rest⟩ := gives.bind
    obtain ⟨part, parts⟩ := List.forall_mem_cons.mp listed
    obtain ⟨first, others⟩ := List.forall_mem_cons.mp inside
    obtain ⟨some, all⟩ := List.forall_mem_cons.mp named
    obtain ⟨none, _⟩ | ⟨_, builder, _, _, given⟩ := tagged_gives asked
    · rw [none] at some
      cases some
    · obtain ⟨fits, runs⟩ := (Recursion.upTo_sound loaded.formed schema.depth).builder fits first given
      obtain ⟨_, run⟩ := runs []
      obtain ⟨_, _, remaining⟩ := ih parts others all fits rest
      exact ⟨_, _, .more (.leaf loaded.root_isGroup part run) remaining⟩

/-- What asks for the builders of a schema begins with its elements, as what asks for the table of tags does. -/
theorem classBuilders_extends (named : schema.ElementsNamed) {tags : Entries BuilderId} {roots : List BuilderId}
    {tagged middle : Derivation} (tenable : before.Tenable schema.nodes)
    (asked : schema.tags.Gives before tags tagged) (gives : schema.classBuilders.Gives before roots middle) :
    tagged.stage.Extends schema.nodes middle.stage := by
  have split := Nodes.parts_of_schema loaded.root_kind
  obtain ⟨_, _, elements⟩ := tagged_run loaded
    (fun id member => Nodes.leaf_of_schema loaded.root_kind List.mem_cons_self member)
    (fun id member => loaded.formed.child_lt member) named tenable.fits asked
  obtain ⟨_, _, _, _, run⟩ := fields_run loaded loaded.root_lt loaded.root_isGroup tenable.fits gives
  obtain ⟨_, run, _⟩ := run.expand_parts List.not_mem_nil
  rw [split] at run
  obtain ⟨_, _, _, _, _, opens, closes⟩ := run.parts_append
  obtain ⟨_, rfl⟩ := elements.deterministic opens
  obtain ⟨held, _⟩ := (tags_steady loaded).grows tenable asked
  exact closes.extended loaded.formed held.settled.whole trivial rfl

/-- The builder that an element has in the table looks like the one that it is defined by, if elements have
names, or if types stand on top. -/
theorem tags_alike (settled : schema.ElementsNamed ∨ schema.nodes.TypesOnTop) {tags : Entries BuilderId}
    {roots : List BuilderId} {tagged middle : Derivation} (asked : schema.tags.Gives schema.derivation tags tagged)
    (gives : schema.classBuilders.Gives schema.derivation roots middle) {id : NodeId} {first second : BuilderId}
    (found : tagged.builder? id = some first) (known : middle.builder? id = some second) :
    (middle.builders.get second).target = (tagged.builders.get first).target ∧
      (middle.builders.get second).className = (tagged.builders.get first).className := by
  rcases settled with named | top
  · have further := classBuilders_extends loaded named tenable_start asked gives
    obtain ⟨held, _⟩ := (tags_steady loaded).grows tenable_start asked
    cases (further.memo id first found).symm.trans known
    rw [show middle.builders.get first = tagged.builders.get first from
      further.builders.get first (held.settled.whole.range id first found)]
    exact ⟨rfl, rfl⟩
  · obtain ⟨_, derived⟩ := ((tags_answers loaded _ reached_start).1 _ _ asked).derived
    obtain ⟨_, again⟩ := ((classBuilders_answers loaded _ reached_start).1 _ _ gives).derived
    obtain ⟨rename, same⟩ := derived.isomorphism loaded.formed top again found known
    have renamed := same.renamed first .refl
    rw [same.image] at renamed
    exact ⟨renamed.target, renamed.className⟩

/-- The table of tags is there if no references that are used once lead in a circle, and the definitions are if
their classes have no field whose type has no end. What an element is listed with is then the name of a
definition, unless the element is of a built-in type and has a class name nevertheless. Its builder has the
definition of the built-in type. -/
theorem tags_defined (acyclic : schema.nodes.Acyclic) (settled : schema.ElementsNamed ∨ schema.nodes.TypesOnTop)
    (style : Style) :
    ∃ tags tagged, schema.tags.Gives schema.derivation tags tagged ∧
      ((∃ definitions defined, (schema.definitions style).Gives schema.derivation definitions defined) ↔
        schema.RenderingEnds schema.derivation) ∧
      ∀ definitions defined, (schema.definitions style).Gives schema.derivation definitions defined →
        ∀ entry ∈ tags, (tagged.builders.get entry.2).Listed definitions := by
  obtain ⟨tags, tagged, asked⟩ := (tags_steady loaded).total acyclic tenable_start
  refine ⟨tags, tagged, asked, definitions_answered loaded acyclic tenable_start,
    fun definitions defined gives entry listed => ?_⟩
  obtain ⟨roots, middle, derived, same, renderings, written, rfl⟩ := definitions_writes gives
  have builders : defined.builders = middle.builders := congrArg Stage.builders same
  rw [Rendering.ofBuilders?_eq written]
  obtain ⟨id, member, _, found⟩ := tags_found loaded tenable_start asked entry listed
  obtain ⟨builder, root, known⟩ := classBuilders_has loaded tenable_start derived List.mem_cons_self member
  obtain ⟨target, className⟩ := tags_alike loaded settled asked derived found known
  rw [builders] at written ⊢
  exact (Rendering.listed (Option.isSome_of_eq_some written) (Builders.mem_closure_of_root root)).alike target className

end Loaded

set_option maxRecDepth 8000 in
theorem tags_defined_entwined : entwined.Loaded ∧ entwined.nodes.Acyclic ∧ entwined.ElementsNamed ∧
    ∃ tags tagged definitions defined, entwined.tags.Gives entwined.derivation tags tagged ∧
      (entwined.definitions {}).Gives entwined.derivation definitions defined ∧
      tags.map (fun entry => Outcome.classLabel (tagged.builders.get entry.2)) = ["Z", "A"] ∧
      ∀ entry ∈ tags, (tagged.builders.get entry.2).builtin? = none ∧
        (tagged.builders.get entry.2).Listed definitions := by
  have named : entwined.ElementsNamed := List.forall_mem_cons.mpr ⟨rfl, List.forall_mem_singleton.mpr rfl⟩
  have listed : (entwined.tags.run entwined.derivation).map (fun outcome =>
      (outcome.1.map (fun entry => Outcome.classLabel (outcome.2.builders.get entry.2)),
        outcome.1.all fun entry => (outcome.2.builders.get entry.2).builtin? = none)) =
          some (["Z", "A"], true) := by cbv
  have made : ((entwined.definitions {}).run entwined.derivation).isSome := by cbv
  obtain ⟨⟨tags, tagged⟩, asked, same⟩ := Option.map_eq_some_iff.mp listed
  obtain ⟨⟨definitions, defined⟩, gives⟩ := Option.isSome_iff_exists.mp made
  obtain ⟨labels, plain⟩ := Prod.mk.inj same
  obtain ⟨_, _, answered, _, known⟩ := tags_defined entwined_loaded entwined_acyclic (Or.inl named) {}
  cases Option.some.inj (asked.symm.trans answered)
  refine ⟨entwined_loaded, entwined_acyclic, named, tags, tagged, definitions, defined, asked, gives, labels,
    fun entry member => ?_⟩
  exact ⟨of_decide_eq_true (List.all_eq_true.mp plain entry member), known definitions defined gives entry member⟩

end Schema

/-- An element `title` of the built-in type of strings. -/
def Document.titled : Document where
  elements := #[
    { name := "schema", children := #[1] },
    { name := "element", attributes := [("name", "title"), ("type", "string")], parent := some 0 }]
  root := some 0

/-- An element without a name, of the type `D` and with another type inside; an element `c` around the type `D`, and a
type `E`. -/
def Document.hidden : Document where
  elements := #[
    { name := "schema", children := #[1, 5, 7] },
    { name := "element", attributes := [("type", "D")], children := #[2], parent := some 0 },
    { name := "complexType", children := #[3], parent := some 1 },
    { name := "complexContent", children := #[4], parent := some 2 },
    { name := "extension", attributes := [("base", "E")], parent := some 3 },
    { name := "element", attributes := [("name", "c")], children := #[6], parent := some 0 },
    { name := "complexType", attributes := [("name", "D")], parent := some 5 },
    { name := "complexType", attributes := [("name", "E")], parent := some 0 }]
  root := some 0

namespace Schema

def titled : Schema where
  nodes := #[
    { construct := .schema none, children := [⟨.element, 1⟩] },
    { parent := some 0, construct := .element { name := some "title", type := some (.builtin .string) } }]
  root := 0
  declarations := [("title", 1)]

set_option maxRecDepth 8000 in
theorem titled_loaded : titled.Loaded :=
  ⟨{}, .titled, Array.replicate 2 none, by cbv⟩

def hidden : Schema where
  nodes := #[
    { construct := .schema none, children := [⟨.element, 1⟩, ⟨.element, 5⟩, ⟨.complexType, 7⟩] },
    { parent := some 0, construct := .element { type := some (.complex 6) }, children := [⟨.complexType, 2⟩] },
    { parent := some 1, construct := .complexType none false false, children := [⟨.complexContent, 3⟩] },
    { parent := some 2, construct := .complexContent false, children := [⟨.extension, 4⟩] },
    { parent := some 3, construct := .extension (some (.complex 7)) },
    { parent := some 0, construct := .element { name := some "c" }, children := [⟨.complexType, 6⟩] },
    { parent := some 5, construct := .complexType (some "D") false false },
    { parent := some 0, construct := .complexType (some "E") false false }]
  root := 0
  declarations := [("c", 5)]

set_option maxRecDepth 8000 in
theorem hidden_loaded : hidden.Loaded :=
  ⟨{}, .hidden, Array.replicate 8 none, by cbv⟩

/-- What is printed for an element of a built-in type is its class name, and no definition has that name. -/
theorem builtin_listed : titled.Loaded ∧ titled.nodes.Acyclic ∧ ∃ tags tagged definitions defined,
    titled.tags.Gives titled.derivation tags tagged ∧
    (titled.definitions {}).Gives titled.derivation definitions defined ∧
      ∃ entry ∈ tags, Outcome.classLabel (tagged.builders.get entry.2) = "Title" ∧
        (Collection.ofList definitions).definitions.map Definition.name = ["string"] := by
  have listed : (titled.tags.run titled.derivation).map (fun outcome =>
      (outcome.1, Outcome.classLabel (outcome.2.builders.get 0))) = some ([("title", 0)], "Title") := by cbv
  have made : ((titled.definitions {}).run titled.derivation).map (fun outcome =>
      (Collection.ofList outcome.1).definitions.map Definition.name) = some ["string"] := by cbv
  obtain ⟨⟨tags, tagged⟩, asked, same⟩ := Option.map_eq_some_iff.mp listed
  obtain ⟨⟨definitions, defined⟩, gives, names⟩ := Option.map_eq_some_iff.mp made
  obtain ⟨rfl, label⟩ := Prod.mk.inj same
  exact ⟨titled_loaded, Nodes.acyclic_of_all (by decide), _, tagged, definitions, defined, asked, gives, ("title", 0),
    List.mem_cons_self, label, names⟩

set_option maxRecDepth 8000 in
/-- If an element without a name is derived before another, a type inside of the other may have a
builder that nothing leads to. In the table, which leaves elements without a name out, the other has the
class of the type. -/
theorem type_hidden : hidden.Loaded ∧ hidden.nodes.Acyclic ∧ ∃ tags tagged definitions defined,
    hidden.tags.Gives hidden.derivation tags tagged ∧
    (hidden.definitions {}).Gives hidden.derivation definitions defined ∧
      ∃ entry ∈ tags, (tagged.builders.get entry.2).IsClass "D" ∧
        (Collection.ofList definitions).definitions.map Definition.name = ["E", "C"] := by
  have listed : (hidden.tags.run hidden.derivation).map (fun outcome =>
      (outcome.1, (outcome.2.builders.get 0).className, (outcome.2.builders.get 0).builtin?)) =
        some ([("c", 0)], some "D", none) := by cbv
  have made : ((hidden.definitions {}).run hidden.derivation).map (fun outcome =>
      (Collection.ofList outcome.1).definitions.map Definition.name) = some ["E", "C"] := by cbv
  obtain ⟨⟨tags, tagged⟩, asked, same⟩ := Option.map_eq_some_iff.mp listed
  obtain ⟨⟨definitions, defined⟩, gives, names⟩ := Option.map_eq_some_iff.mp made
  simp only [Prod.mk.injEq] at same
  obtain ⟨rfl, named, plain⟩ := same
  exact ⟨hidden_loaded, Nodes.acyclic_of_all (by decide), _, tagged, definitions, defined, asked, gives, ("c", 0),
    List.mem_cons_self, ⟨named, plain⟩, names⟩

end Schema
end SchemaClasses
