import SchemaClasses.Proofs.Derivation.ContentModel
import SchemaClasses.Proofs.Derivation.Lodgers
import SchemaClasses.Proofs.Derivation.Requests

/-! Choices and selections. A class checks each choice by all elements inside of it, so it accepts the instances
that have exactly one of them. These are all selections only where no option of a choice is more than one
element. -/

namespace SchemaClasses

/-- An instance whose fields are the elements that are selected from the content model of a type. -/
structure Selection (nodes : Nodes) (stage : Stage) (type : NodeId) (content : Content) (picked : List NodeId)
    (object : Instance) :
    Prop where
  holds : nodes.Holds type content
  distinct : (content.elements.map stage.fieldName?).Nodup
  selects : content.Selects picked
  fields : ∀ field, object.hasField field ↔ ∃ leaf ∈ picked, stage.fieldName? leaf = some field

namespace Nodes.Holds
variable {nodes : Nodes} {type : NodeId} {content : Content}

theorem baseless (holds : nodes.Holds type content) : nodes.Baseless type where
  kind := holds.kind
  plain child member := by
    obtain ⟨root, _, model, _, others⟩ := holds.model
    by_cases same : child = root
    · subst same
      rcases model with kind | kind <;> simp [kind]
    · rcases others child member same with kind | kind <;> simp [kind]

theorem leaf (holds : nodes.Holds type content) :
    ∀ leaf ∈ content.elements, nodes.kindOf leaf = .element ∧ nodes.Stated leaf := by
  obtain ⟨_, _, _, models, _⟩ := holds.model
  exact models.leaf

end Nodes.Holds

theorem Stage.Settled.names {nodes : Nodes} {stage : Stage} (settled : stage.Settled nodes)
    (formed : nodes.Formed) {leaf : NodeId} (kind : nodes.kindOf leaf = .element) (stated : nodes.Stated leaf)
    (known : stage.memo leaf ≠ none) :
    ∃ name, stage.fieldName? leaf = some name := by
  obtain ⟨builder, found⟩ := Option.ne_none_iff_exists'.mp known
  have apart : ¬nodes.Embedded leaf := formed.not_embedded_of_kind (by rw [kind]; rfl)
  obtain ⟨owner, owns, held, named, _⟩ := (settled.shared leaf builder found).owner formed apart
  obtain ⟨name, own⟩ := named stated
  have tag : (stage.builders.get builder).fieldTag = some name :=
    (settled.titled owner builder owns held).trans (Nodes.title_of_stated own)
  exact ⟨Name.field name, by simp [Stage.fieldName?, found, Builders.fieldName?, Builder.fieldName?, tag]⟩

/-- A choice accepts an instance that has exactly one of its fields. -/
theorem Check.passes_choice {object : Instance} {fields : List String} (distinct : fields.Nodup) :
    (choice fields).passes object = true ↔ ∃! field, field ∈ fields ∧ object.hasField field := by
  rw [passes, decide_eq_true_iff, List.length_eq_one_iff]
  constructor
  · rintro ⟨field, only⟩
    have held (other : String) : other ∈ fields ∧ object.hasField other ↔ other = field := by
      rw [← List.mem_filter, only, List.mem_singleton]
    exact ⟨field, (held field).mpr rfl, fun other => (held other).mp⟩
  · rintro ⟨field, held, unique⟩
    have only (other : String) : other ∈ fields.filter object.hasField ↔ other ∈ [field] := by
      rw [List.mem_filter, List.mem_singleton]
      exact ⟨unique other, fun same => same ▸ held⟩
    exact ⟨field, List.perm_singleton.mp
      ((List.perm_ext_iff_of_nodup (distinct.filter _) (List.nodup_singleton field)).mpr only)⟩

theorem Rendering.choice_mem_iff {style : Style} {builders : Builders} {id : BuilderId} {rendering : Rendering}
    (rendered : ofBuilder? style builders id = some rendering) {fields : List String} :
    .choice fields ∈ rendering.definition.checks ↔
      rendering.definition.aliased = none ∧ fields ∈ (builders.rules id).filterMap Rule.options? := by
  have compiled (rule : Rule) : Check.ofRule? rule = some (.choice fields) ↔ rule.options? = some fields := by
    unfold Check.ofRule? Rule.options?
    split <;> simp
  rcases ofBuilder?_eq_some_iff.mp rendered with ⟨_, _, rfl⟩ | ⟨_, _, _, _, _, rfl⟩
  · simp [ofBuiltin]
  · simp [ofClass, List.mem_filterMap, compiled]

namespace Selection
variable {nodes : Nodes} {stage : Stage} {type : NodeId} {content : Content} {picked : List NodeId} {object : Instance}

theorem name_injective (selection : Selection nodes stage type content picked object) {first second : NodeId}
    (left : first ∈ content.elements) (right : second ∈ content.elements)
    (equal : stage.fieldName? first = stage.fieldName? second) :
    first = second :=
  List.inj_on_of_nodup_map selection.distinct left right equal

theorem names_nodup (selection : Selection nodes stage type content picked object) {leaves : List NodeId}
    (inside : leaves.Sublist content.elements) : (leaves.filterMap stage.fieldName?).Nodup := by
  have names : (leaves.map stage.fieldName?).Nodup := (inside.map _).nodup selection.distinct
  have present : leaves.filterMap stage.fieldName? = (leaves.map stage.fieldName?).filterMap id := by
    rw [List.filterMap_map]
    rfl
  rw [present]
  exact names.filterMap fun first second name left right => (left.trans right.symm : first = second)

theorem hasField_iff (selection : Selection nodes stage type content picked object) {leaf : NodeId} {name : String}
    (member : leaf ∈ content.elements) (named : stage.fieldName? leaf = some name) :
    object.hasField name ↔ leaf ∈ picked := by
  rw [selection.fields name]
  constructor
  · rintro ⟨other, taken, found⟩
    rw [selection.name_injective member (selection.selects.subset taken) (named.trans found.symm)]
    exact taken
  · exact fun taken => ⟨leaf, taken, named⟩

/-- A choice between some of the elements accepts the selections with exactly one of them. -/
theorem accepts (selection : Selection nodes stage type content picked object)
    (names : ∀ leaf ∈ content.elements, ∃ name, stage.fieldName? leaf = some name) {leaves : List NodeId}
    (inside : leaves.Sublist content.elements) :
    (Check.choice (leaves.filterMap stage.fieldName?)).passes object = true ↔
      ∃! leaf, leaf ∈ leaves ∧ leaf ∈ picked := by
  have held {leaf : NodeId} {name : String} (member : leaf ∈ leaves) (named : stage.fieldName? leaf = some name) :
      object.hasField name ↔ leaf ∈ picked := selection.hasField_iff (inside.subset member) named
  have listed {leaf : NodeId} {name : String} (member : leaf ∈ leaves) (named : stage.fieldName? leaf = some name) :
      name ∈ leaves.filterMap stage.fieldName? := List.mem_filterMap.mpr ⟨leaf, member, named⟩
  rw [Check.passes_choice (selection.names_nodup inside)]
  constructor
  · rintro ⟨name, ⟨found, present⟩, unique⟩
    obtain ⟨leaf, member, named⟩ := List.mem_filterMap.mp found
    refine ⟨leaf, ⟨member, (held member named).mp present⟩, fun other ⟨among, taken⟩ => ?_⟩
    obtain ⟨key, called⟩ := names other (inside.subset among)
    cases unique key ⟨listed among called, (held among called).mpr taken⟩
    exact selection.name_injective (inside.subset among) (inside.subset member) (called.trans named.symm)
  · rintro ⟨leaf, ⟨member, taken⟩, unique⟩
    obtain ⟨name, named⟩ := names leaf (inside.subset member)
    refine ⟨name, ⟨listed member named, (held member named).mpr taken⟩, fun key ⟨found, present⟩ => ?_⟩
    obtain ⟨other, among, called⟩ := List.mem_filterMap.mp found
    cases unique other ⟨among, (held among called).mp present⟩
    exact Option.some.inj (called.symm.trans named)

end Selection

/-- An instance passes all checks for choices. -/
def Definition.PassesChoices (definition : Definition) (object : Instance) : Prop :=
  ∀ fields, .choice fields ∈ definition.checks → (Check.choice fields).passes object = true

namespace Schema

theorem Loaded.element_names {schema : Schema} (loaded : schema.Loaded) {stage : Stage}
    (settled : stage.Settled schema.nodes) {type : NodeId} {content : Content}
    (holds : schema.nodes.Holds type content) {builder : BuilderId} (found : stage.memo type = some builder) :
    ∀ leaf ∈ content.elements, ∃ name, stage.fieldName? leaf = some name := by
  intro leaf member
  obtain ⟨kind, stated⟩ := holds.leaf leaf member
  obtain ⟨other, known, _⟩ :=
    settled.closed type builder found List.not_mem_nil leaf (loaded.leads_element holds member)
  apply settled.names loaded.formed kind stated
  rw [known]
  exact Option.some_ne_none _

/-- The rules for choices in the builder of a type with a content model are those of the content model. -/
theorem Loaded.model_choices {schema : Schema} (loaded : schema.Loaded) {after : Derivation}
    (tenable : after.Tenable schema.nodes) {type : NodeId} {content : Content}
    (holds : schema.nodes.Holds type content) {builder : BuilderId} (found : after.builder? type = some builder) :
    after.builders.choices builder = content.choices.map fun options =>
    (Content.elementsOf options).filterMap after.stage.fieldName? := by
  obtain ⟨ledger, answered⟩ := tenable.answered
  have contents := loaded.contentChoices_eq holds
  have choices := loaded.type_choices holds.baseless answered found fun leaves listed leaf member late => by
    rw [contents] at listed
    obtain ⟨options, among, rfl⟩ := List.mem_map.mp listed
    exact late.2 (holds.leaf leaf ((content.choice_sublist options among).subset member)).2
  rw [contents, List.map_map] at choices
  exact choices

/-- Whatever is asked of a schema, an instance of a type with the elements of a selection passes all checks for
choices of the type if and only if exactly one of all the elements inside of each choice is selected. Where each
option of a choice is a single element, that is so for every selection. The definition of an alias has no
checks. -/
theorem selections_pass {schema : Schema} (loaded : schema.Loaded) {requests : List Request}
    (inside : ∀ request ∈ requests, request.Inside schema) {replies : List Reply} {after : Derivation}
    (gives : (schema.replies requests).Gives schema.derivation replies after) {type : NodeId} {content : Content}
    {picked : List NodeId} {object : Instance}
    (selection : Selection schema.nodes after.stage type content picked object) {builder : BuilderId}
    (found : after.builder? type = some builder) {style : Style} {rendering : Rendering}
    (rendered : Rendering.ofBuilder? style after.builders builder = some rendering) :
    (rendering.definition.PassesChoices object ↔ rendering.definition.aliased = none → content.Alone picked) ∧
      (content.Flat → rendering.definition.PassesChoices object) := by
  obtain ⟨tenable, _⟩ := (replies_safe loaded inside).grows tenable_start gives
  have holds := selection.holds
  have names := loaded.element_names tenable.settled holds found
  -- The checks for choices are, name by name, the choices of the content model.
  have checked (fields : List String) :
    .choice fields ∈ rendering.definition.checks ↔ rendering.definition.aliased = none ∧
      ∃ options ∈ content.choices, (Content.elementsOf options).filterMap after.stage.fieldName? = fields := by
    have recorded : (after.builders.rules builder).filterMap Rule.options? =
        content.choices.map fun options => (Content.elementsOf options).filterMap after.stage.fieldName? :=
      (Builders.choices_inside (tenable.settled.whole.range type builder found)).symm.trans
        (loaded.model_choices tenable holds found)
    rw [Rendering.choice_mem_iff rendered, recorded, List.mem_map]
  have accepts (options : List Content) (member : options ∈ content.choices) :=
    selection.accepts names (content.choice_sublist options member)
  have passes (alone : rendering.definition.aliased = none → content.Alone picked) :
      rendering.definition.PassesChoices object := by
    intro fields check
    obtain ⟨plain, options, member, rfl⟩ := (checked fields).mp check
    exact (accepts options member).mpr (alone plain options member)
  refine ⟨⟨fun pass plain options member => ?_, passes⟩, fun flat => passes fun _ => ?_⟩
  · exact (accepts options member).mp (pass _ ((checked _).mpr ⟨plain, options, member, rfl⟩))
  · exact selection.selects.alone flat selection.distinct.of_map

end Schema

/-- An instance with one value in each of some fields. -/
def Instance.holding (className : String) (names : List String) : Instance where
  className
  tagName := className
  fields := names.map fun name => (name, [{ className := name, tagName := name }])

theorem Instance.hasField_holding {className field : String} {names : List String} :
    (holding className names).hasField field ↔ field ∈ names := by
  unfold holding hasField values Entries.get?
  induction names with
  | nil => simp
  | cons name names ih =>
    by_cases same : field = name
    · simp [same]
    · simpa [List.lookup_cons, same, beq_eq_false_iff_ne.mpr same] using ih

def Document.forked : Document where
  elements := #[
    { name := "schema", children := #[1, 5] },
    { name := "complexType", attributes := [("name", "Pair")], children := #[2], parent := some 0 },
    { name := "choice", children := #[3, 4], parent := some 1 },
    { name := "element", attributes := [("name", "a")], parent := some 2 },
    { name := "element", attributes := [("name", "b")], parent := some 2 },
    { name := "complexType", attributes := [("name", "Deep")], children := #[6], parent := some 0 },
    { name := "choice", children := #[7, 10], parent := some 5 },
    { name := "sequence", children := #[8, 9], parent := some 6 },
    { name := "element", attributes := [("name", "c")], parent := some 7 },
    { name := "element", attributes := [("name", "d")], parent := some 7 },
    { name := "element", attributes := [("name", "e")], parent := some 6 }]
  root := some 0

namespace Schema

/-- A schema with a choice between two elements, and one where an option is a sequence of two elements. -/
def forked : Schema where
  nodes := #[
    { construct := .schema none, children := [⟨.complexType, 1⟩, ⟨.complexType, 5⟩] },
    { parent := some 0, construct := .complexType (some "Pair") false false, children := [⟨.choice, 2⟩] },
    { parent := some 1, construct := .choice {}, children := [⟨.element, 3⟩, ⟨.element, 4⟩] },
    { parent := some 2, construct := .element { name := some "a" } },
    { parent := some 2, construct := .element { name := some "b" } },
    { parent := some 0, construct := .complexType (some "Deep") false false, children := [⟨.choice, 6⟩] },
    { parent := some 5, construct := .choice {}, children := [⟨.sequence, 7⟩, ⟨.element, 10⟩] },
    { parent := some 6, construct := .sequence {}, children := [⟨.element, 8⟩, ⟨.element, 9⟩] },
    { parent := some 7, construct := .element { name := some "c" } },
    { parent := some 7, construct := .element { name := some "d" } },
    { parent := some 6, construct := .element { name := some "e" } }]
  root := 0
  declarations := [("a", 3), ("b", 4), ("c", 8), ("d", 9), ("e", 10)]

set_option maxRecDepth 8000 in
theorem forked_loaded : forked.Loaded :=
  ⟨{}, .forked, Array.replicate 11 none, by cbv⟩

theorem forked_inside : ∀ request ∈ [Request.classBuilders], request.Inside forked :=
  List.forall_mem_singleton.mpr trivial

theorem forked_pair : forked.nodes.Holds 1 (.choice [.element 3, .element 4]) where
  kind := rfl
  model := by
    refine ⟨⟨.choice, 2⟩, List.mem_cons_self, Or.inr rfl, .choice rfl ?_, fun other member different => ?_⟩
    · exact .cons (.element rfl rfl (.own rfl)) (.cons (.element rfl rfl (.own rfl)) .nil)
    · exact absurd (List.mem_singleton.mp member) different

theorem forked_deep : forked.nodes.Holds 5 (.choice [.sequence [.element 8, .element 9], .element 10]) where
  kind := rfl
  model := by
    refine ⟨⟨.choice, 6⟩, List.mem_cons_self, Or.inr rfl, .choice rfl ?_, fun other member different => ?_⟩
    · refine .cons (.sequence rfl ?_) (.cons (.element rfl rfl (.own rfl)) .nil)
      exact .cons (.element rfl rfl (.own rfl)) (.cons (.element rfl rfl (.own rfl)) .nil)
    · exact absurd (List.mem_singleton.mp member) different

theorem forked_classes :
    ∃ replies after pair deep, (forked.replies [.classBuilders]).Gives forked.derivation replies after ∧
    after.builder? 1 = some 0 ∧ after.builder? 5 = some 3 ∧
      [3, 4, 8, 9, 10].map after.stage.fieldName? = [some "a", some "b", some "c", some "d", some "e"] ∧
        Rendering.ofBuilder? {} after.builders 0 = some pair ∧ Rendering.ofBuilder? {} after.builders 3 = some deep ∧
          .choice ["c", "d", "e"] ∈ deep.definition.checks := by
  have outcome : ((forked.replies [.classBuilders]).run forked.derivation).map (fun outcome =>
      ([1, 5].map outcome.2.builder?, [3, 4, 8, 9, 10].map outcome.2.stage.fieldName?,
        [0, 3].map fun builder => (Rendering.ofBuilder? {} outcome.2.builders builder).map fun rendering =>
          rendering.definition.checks)) =
          some ([some 0, some 3], [some "a", some "b", some "c", some "d", some "e"],
            [some [.fieldValid "a", .fieldValid "b", .choice ["a", "b"]],
              some [.fieldValid "c", .fieldValid "d", .fieldValid "e", .choice ["c", "d", "e"]]]) := by decide +kernel
  obtain ⟨⟨replies, after⟩, gives, same⟩ := Option.map_eq_some_iff.mp outcome
  simp only [Prod.mk.injEq, List.map_cons, List.map_nil, List.cons.injEq, Option.map_eq_some_iff, and_true] at same ⊢
  obtain ⟨⟨first, second⟩, names, ⟨pair, rendered, _⟩, ⟨deep, other, checks⟩⟩ := same
  exact ⟨replies, after, pair, deep, gives, first, second, names, rendered, other, by rw [checks]; decide⟩

theorem selections_pass_forked : forked.Loaded ∧ (∀ request ∈ [Request.classBuilders], request.Inside forked) ∧
    ∃ replies after rendering, (forked.replies [.classBuilders]).Gives forked.derivation replies after ∧
      Selection forked.nodes after.stage 1 (.choice [.element 3, .element 4]) [3] (.holding "Pair" ["a"]) ∧
        after.builder? 1 = some 0 ∧ Rendering.ofBuilder? {} after.builders 0 = some rendering ∧
        Content.Flat (.choice [.element 3, .element 4]) ∧
          (rendering.definition.PassesChoices (.holding "Pair" ["a"]) ↔ rendering.definition.aliased = none →
            Content.Alone (.choice [.element 3, .element 4]) [3]) ∧
          (Content.Flat (.choice [.element 3, .element 4]) →
            rendering.definition.PassesChoices (.holding "Pair" ["a"])) := by
  obtain ⟨replies, after, rendering, _, gives, found, _, names, rendered, _⟩ := forked_classes
  simp only [List.map_cons, List.map_nil, List.cons.injEq, and_true] at names
  obtain ⟨a, b, _⟩ := names
  have selection : Selection forked.nodes after.stage 1 (.choice [.element 3, .element 4]) [3]
      (.holding "Pair" ["a"]) := by
    refine ⟨forked_pair, ?_, .choice List.mem_cons_self .element, fun field => ?_⟩
    · simp [Content.elements, Content.elementsOf, a, b]
    · simpa [Instance.hasField_holding, a] using eq_comm
  have flat : Content.Flat (.choice [.element 3, .element 4]) := by
    intro options member option listed
    cases List.mem_singleton.mp member
    rcases List.mem_cons.mp listed with rfl | listed
    · exact ⟨3, .element⟩
    · cases List.mem_singleton.mp listed
      exact ⟨4, .element⟩
  exact ⟨forked_loaded, forked_inside, replies, after, rendering, gives, selection, found, rendered, flat,
    selections_pass forked_loaded forked_inside gives selection found rendered⟩

/-- Where an option is a sequence of two elements, the class rejects the selection of that option, as both
elements are options of its check. -/
theorem selection_fails : forked.Loaded ∧ (∀ request ∈ [Request.classBuilders], request.Inside forked) ∧
    ∃ replies after rendering, (forked.replies [.classBuilders]).Gives forked.derivation replies after ∧
      Selection forked.nodes after.stage 5 (.choice [.sequence [.element 8, .element 9], .element 10]) [8, 9]
          (.holding "Deep" ["c", "d"]) ∧
        after.builder? 5 = some 3 ∧ Rendering.ofBuilder? {} after.builders 3 = some rendering ∧
          .choice ["c", "d", "e"] ∈ rendering.definition.checks ∧
            (Check.choice ["c", "d", "e"]).passes (.holding "Deep" ["c", "d"]) = false := by
  obtain ⟨replies, after, _, rendering, gives, _, found, names, _, rendered, check⟩ := forked_classes
  simp only [List.map_cons, List.map_nil, List.cons.injEq, and_true] at names
  obtain ⟨_, _, c, d, e⟩ := names
  refine ⟨forked_loaded, forked_inside, replies, after, rendering, gives, ?_, found, rendered, check, by decide⟩
  refine ⟨forked_deep, ?_, .choice List.mem_cons_self (.sequence (.cons .element (.cons .element .nil))), fun field =>
    ?_⟩
  · simp [Content.elements, Content.elementsOf, c, d, e]
  · simpa [Instance.hasField_holding, c, d] using or_congr eq_comm eq_comm

end Schema
end SchemaClasses
