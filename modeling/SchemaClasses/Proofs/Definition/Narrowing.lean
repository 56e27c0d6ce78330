import SchemaClasses.Proofs.Definition.Precedence
import SchemaClasses.Proofs.Definition.Validation
import SchemaClasses.Proofs.Derivation.Facets

/-! Restrictions and validation. A class checks the facets that its own type states. It extends the class of its
base by name and does not look at the checks of that. So a restriction narrows its base where it states the
facets of the base again. -/

namespace SchemaClasses

namespace ValueBound

/-- A limit that only admits what another admits. Between two whole numbers there may be other values. -/
def tightens : ValueBound → Int → ValueBound → Int → Bool
  | minExclusive, own, minExclusive, other => other ≤ own
  | minExclusive, own, minInclusive, other => other ≤ own
  | minInclusive, own, minInclusive, other => other ≤ own
  | minInclusive, own, minExclusive, other => other < own
  | maxExclusive, own, maxExclusive, other => own ≤ other
  | maxExclusive, own, maxInclusive, other => own ≤ other
  | maxInclusive, own, maxInclusive, other => own ≤ other
  | maxInclusive, own, maxExclusive, other => own < other
  | _, _, _, _ => false

/-- How a value that is admitted compares with the limit. -/
def Keeps (value limit : Int) : ValueBound → Prop
  | minExclusive => limit < value
  | minInclusive => limit ≤ value
  | maxExclusive => value < limit
  | maxInclusive => value ≤ limit

theorem admits_compare {bound : ValueBound} {value limit : Int} :
    bound.admits (compare value limit) = true ↔ bound.Keeps value limit := by
  cases bound
  all_goals
    simp only [admits, Keeps, compare, compareOfLessAndEq]
    split_ifs <;> simp <;> omega

theorem tightens_admits {own bound : ValueBound} {limit other : Int} (tightens : own.tightens limit bound other)
    {number : Decimal} (admits : own.admits (number.compareInt limit)) : bound.admits (number.compareInt other) := by
  rw [Decimal.compareInt, admits_compare] at admits ⊢
  have positive : (0 : Int) < Digits.tenTo number.scale := Int.natCast_pos.mpr (Nat.pow_pos (by decide))
  have weak {first second : Int} (le : first ≤ second) :
      first * Digits.tenTo number.scale ≤ second * Digits.tenTo number.scale :=
    Int.mul_le_mul_of_nonneg_right le positive.le
  have strict {first second : Int} (lt : first < second) :
      first * Digits.tenTo number.scale < second * Digits.tenTo number.scale :=
    Int.mul_lt_mul_of_pos_right lt positive
  cases own <;> cases bound <;> simp only [ValueBound.tightens, Keeps, decide_eq_true_eq, Bool.false_eq_true]
    at tightens admits ⊢
  all_goals first | have scaled := weak tightens; omega | have scaled := strict tightens; omega

end ValueBound

namespace LengthBound

/-- A number of characters that only admits what another admits. -/
def tightens : LengthBound → Int → LengthBound → Int → Bool
  | exact, own, bound, other => bound.admits (compare own other)
  | minimum, own, minimum, other => other ≤ own
  | maximum, own, maximum, other => own ≤ other
  | _, _, _, _ => false

/-- How a number of characters that is admitted compares with the limit. -/
def Keeps (count limit : Int) : LengthBound → Prop
  | exact => count = limit
  | minimum => limit ≤ count
  | maximum => count ≤ limit

theorem admits_compare {bound : LengthBound} {count limit : Int} :
    bound.admits (compare count limit) = true ↔ bound.Keeps count limit := by
  cases bound
  all_goals
    simp only [admits, Keeps, compare, compareOfLessAndEq]
    split_ifs <;> simp <;> omega

theorem tightens_admits {own bound : LengthBound} {limit other count : Int} (tightens : own.tightens limit bound other)
    (admits : own.admits (compare count limit)) : bound.admits (compare count other) := by
  rw [admits_compare] at admits
  cases own with
  | exact =>
    rw [LengthBound.tightens] at tightens
    rw [show count = limit from admits]
    exact tightens
  | minimum | maximum =>
    rw [admits_compare]
    cases bound <;> simp only [LengthBound.tightens, Keeps, decide_eq_true_eq, Bool.false_eq_true] at tightens admits ⊢
    omega

end LengthBound

namespace Check

/-- Whether a text passes that stands alone in an instance. -/
def admits (check : Check) (text : String) : Bool :=
  check.passes { className := "", tagName := "", content := some text }

theorem passes_leaf {object : Instance} (leaf : object.fields = []) (check : Check) :
    check.passes object = check.admits object.text := by
  cases check with
  | choice fields =>
    have bare : object.hasField = fun _ => false := by
      funext field
      rw [Instance.hasField, Instance.values, leaf]
      rfl
    rw [admits, passes, passes, bare]
    rfl
  | _ => rfl

/-- A check that only admits texts that another admits. -/
def tightens : Check → Check → Bool
  | value own limit, value bound other => own.tightens limit bound other
  | fractionDigits own, fractionDigits other => own = other
  | length own limit, length bound other => own.tightens limit bound other
  | enumeration values, check => values.all check.admits
  | _, _ => false

/-- Whatever a check admits is admitted by the checks that it tightens. -/
theorem tightens_admits {own check : Check} {text : String} (tightens : own.tightens check) (admits : own.admits text) :
    check.admits text := by
  cases own with
  | value own limit =>
    cases check with
    | value bound other =>
      simp only [Check.admits, passes] at admits ⊢
      split at admits
      · exact ValueBound.tightens_admits tightens admits
      · cases admits
    | _ => cases tightens
  | fractionDigits own =>
    cases check with
    | fractionDigits other =>
      rw [Check.tightens, decide_eq_true_eq] at tightens
      exact tightens ▸ admits
    | _ => cases tightens
  | length own limit =>
    cases check with
    | length bound other => exact LengthBound.tightens_admits tightens admits
    | _ => cases tightens
  | enumeration values =>
    have listed : text ∈ values := List.contains_iff_mem.mp admits
    exact List.all_eq_true.mp tightens text listed
  | fieldValid field | choice fields => cases tightens

end Check

namespace Nodes

/-- The checks for the facets that a simple type states itself. There are facets without a check. -/
def statedChecks (nodes : Nodes) (type : NodeId) : List Check :=
  (nodes.facets type).rules.filterMap Check.ofRule?

/-- What the checks that a type states itself have to report of a text. -/
def failures (nodes : Nodes) (type : NodeId) (className text : String) : List String :=
  ((nodes.statedChecks type).filter fun check => !check.admits text).map fun check => className ++ ": " ++ check.text

def Restricts (nodes : Nodes) (type base : NodeId) : Prop :=
  ∃ inner facets, (nodes.get type).child? .restriction = some inner ∧
    (nodes.get inner).construct = .restriction (some (.simple base)) facets

/-- A restriction that states what is checked for its base again, at least as strictly. -/
structure Narrows (nodes : Nodes) (type base : NodeId) : Prop where
  restricts : nodes.Restricts type base
  restates : ∀ check ∈ nodes.statedChecks base, ∃ own ∈ nodes.statedChecks type, own.tightens check

variable {nodes : Nodes} {type base : NodeId} {className text : String}

theorem failures_eq_nil :
    nodes.failures type className text = [] ↔ ∀ check ∈ nodes.statedChecks type, check.admits text := by
  simp [failures, List.filter_eq_nil_iff]

/-- What passes the checks of a type passes those of all types that it narrows. -/
theorem Narrows.admits (chain : Relation.ReflTransGen nodes.Narrows type base)
    (passes : ∀ check ∈ nodes.statedChecks type, check.admits text) :
    ∀ check ∈ nodes.statedChecks base, check.admits text := by
  induction chain with
  | refl => exact passes
  | tail _ narrows ih =>
    intro check listed
    obtain ⟨own, stated, tightens⟩ := narrows.restates check listed
    exact Check.tightens_admits tightens (ih own stated)

end Nodes

theorem Collection.validate_leaf {collection : Collection} {definition : Definition} {object : Instance}
    (found : collection.find? object.className = some definition) (leaf : object.fields = []) :
    collection.validate object =
      (definition.checks.filter fun check => !check.admits object.text).map fun check =>
        definition.name ++ ": " ++ check.text := by
  rw [validate_eq found, leaf, validateFields]
  induction definition.checks with
  | nil => rfl
  | cons check checks ih =>
    have report : checkReport definition.name object [] check =
        if check.admits object.text then [] else [definition.name ++ ": " ++ check.text] := by
      rw [← Check.passes_leaf leaf]
      cases check <;> rfl
    rw [List.flatMap_cons, ih, report, List.filter_cons]
    cases check.admits object.text <;> rfl

/-- No two classes have one name, and none is called like a built-in type. -/
def Definition.Distinct (definitions : List Definition) : Prop :=
  definitions.Pairwise fun first second => first.name = second.name → first.isBuiltin ∧ second.isBuiltin

theorem Definition.Distinct.find? {definitions : List Definition} (distinct : Distinct definitions)
    {definition : Definition} (listed : definition ∈ definitions) (plain : definition.isBuiltin = false) :
    (Collection.ofList definitions).find? definition.name = some definition := by
  rw [Collection.find?_ofList]
  have some : (definitions.find? (·.name == definition.name)).isSome :=
    List.find?_isSome.mpr ⟨definition, listed, beq_self_eq_true _⟩
  obtain ⟨kept, found⟩ := Option.isSome_iff_exists.mp some
  rw [found]
  by_contra different
  have symmetric : Std.Symm fun first second : Definition => first.name = second.name → first.isBuiltin ∧
    second.isBuiltin :=
    ⟨fun _ _ apart same => (apart same.symm).symm⟩
  have apart := List.Pairwise.forall distinct (List.mem_of_find?_eq_some found) listed fun same =>
    different (congrArg _ same)
  have same := List.find?_some found
  rw [(apart (eq_of_beq same)).2] at plain
  cases plain

namespace Schema

/-- A simple type on top, and what its class is called. -/
structure Offers (schema : Schema) (type : NodeId) (className : String) : Prop where
  top : schema.IsTop type
  kind : schema.nodes.kindOf type = .simpleType
  called : schema.nodes.className? type = some className

variable {schema : Schema} (loaded : schema.Loaded) {style : Style} {definitions : List Definition} {after : Derivation}
  (gives : (schema.definitions style).Gives schema.derivation definitions after) {type base : NodeId}
    {className baseName : String}
include loaded gives

/-- When classes are rendered, the rules of a simple type are those for the facets that it states itself. -/
theorem definitions_facets (offers : schema.Offers type className) {builder : BuilderId}
    (found : after.builder? type = some builder) : after.builders.rules builder = (schema.nodes.facets type).rules := by
  obtain ⟨roots, middle, asked, same, _⟩ := definitions_gives gives
  obtain ⟨_, content, made, _, run⟩ := fields_run loaded loaded.root_lt loaded.root_isGroup tenable_start.fits asked
  rw [← same, derivation_stage] at run
  have plan := Nodes.plan_of_inner (show (schema.nodes.kindOf type).isInner by rw [offers.kind]; rfl)
  have underway : Underway schema.nodes [] { builders := {}, memo := fun _ => none } (.expand [] schema.root) :=
    Stage.Settled.empty.underway rfl
  refine loaded.type_facets offers.kind (offers.top.not_embedded loaded) run underway rfl found fun inner embeds => ?_
  exact run.joins loaded.formed embeds (loaded.inner_unasked offers.kind embeds) plan trivial fun _ early =>
    nomatch early

/-- The class of a simple type reports of a text alone what the checks have to report that the type states itself. -/
theorem simpleType_failures (distinct : Definition.Distinct definitions) (offers : schema.Offers type className)
    {object : Instance} (leaf : object.fields = []) :
    (Collection.ofList definitions).validate { object with className } =
      schema.nodes.failures type className object.text := by
  have isType : (schema.nodes.kindOf type).isType := by rw [offers.kind]; rfl
  obtain ⟨own, listed, same, builder, _, found, rendered, rfl⟩ :=
    type_defined loaded tenable_start gives offers.top isType offers.called
  obtain ⟨held, _⟩ := (definitions_safe loaded style).grows tenable_start gives
  have isClass : (after.builders.get builder).IsClass className :=
    held.classed.types type builder className isType (offers.top.not_embedded loaded) offers.called found
  obtain ⟨accessors, _, rfl⟩ := isClass.rendered_iff.mp rendered
  have kept := distinct.find? listed rfl
  rw [show _ = className from same] at kept
  have fields : (accessors.map fun accessor => Check.fieldValid accessor.name).filter (fun check =>
      !check.admits object.text) = [] := by
    refine List.filter_eq_nil_iff.mpr (List.forall_mem_map.mpr fun accessor _ => ?_)
    simp [Check.admits, Check.passes]
  have reported : (Collection.ofList definitions).validate { object with className } = _ :=
    Collection.validate_leaf kept leaf
  rw [reported]
  simp only [Rendering.ofClass, definitions_facets loaded gives offers found, List.filter_append]
  exact congrArg _ (congrArg (· ++ _) fields)

/-- If a text passes under the class of a simple type, what it fails under the class of another is what the
other states itself and the first does not state again. Along a chain of restrictions that state what is checked
for their bases again, at least as strictly, there is no such check, and so the restriction narrows its base. -/
theorem restriction_narrows (distinct : Definition.Distinct definitions) (restricting : schema.Offers type className)
    (restricted : schema.Offers base baseName) {object : Instance} (leaf : object.fields = [])
    (passes : (Collection.ofList definitions).validate { object with className } = []) :
    (Collection.ofList definitions).validate { object with className := baseName } =
        schema.nodes.failures base baseName object.text ∧
      (∀ check ∈ schema.nodes.statedChecks base, check.admits object.text = false →
        ∀ own ∈ schema.nodes.statedChecks type, own.tightens check = false) ∧
      (Relation.ReflTransGen schema.nodes.Narrows type base →
        (Collection.ofList definitions).validate { object with className := baseName } = []) := by
  rw [simpleType_failures loaded gives distinct restricting leaf] at passes
  rw [simpleType_failures loaded gives distinct restricted leaf]
  have admitted := Nodes.failures_eq_nil.mp passes
  refine ⟨rfl, fun check _ fails own stated => ?_, fun chain => ?_⟩
  · by_contra tightens
    have admits := Check.tightens_admits (Bool.eq_true_of_not_eq_false tightens) (admitted own stated)
    exact absurd (fails.symm.trans admits) Bool.false_ne_true
  · exact Nodes.failures_eq_nil.mpr (Nodes.Narrows.admits chain admitted)

end Schema

/-- A type `Code` of at most three characters, and a restriction `Key` of it that states another bound on the
characters. -/
def Document.restricted (bound : LengthBound) (limit : String) : Document where
  elements := #[
    { name := "schema", children := #[1, 4] },
    { name := "simpleType", attributes := [("name", "Code")], children := #[2], parent := some 0 },
    { name := "restriction", attributes := [("base", "string")], children := #[3], parent := some 1 },
    { name := "maxLength", attributes := [("value", "3")], parent := some 2 },
    { name := "simpleType", attributes := [("name", "Key")], children := #[5], parent := some 0 },
    { name := "restriction", attributes := [("base", "Code")], children := #[6], parent := some 4 },
    { name := (NumericFacet.length bound).tag, attributes := [("value", limit)], parent := some 5 }]
  root := some 0

def Instance.leaf (className text : String) : Instance where
  className
  tagName := "code"
  content := some text

namespace Schema

def restricted (bound : LengthBound) (limit : Int) : Schema where
  nodes := #[
    { construct := .schema none, children := [⟨.simpleType, 1⟩, ⟨.simpleType, 3⟩] },
    { parent := some 0, construct := .simpleType (some "Code"), children := [⟨.restriction, 2⟩] },
    { parent := some 1, construct := .restriction (some (.builtin .string)) { numbers := [(.length .maximum, 3)] } },
    { parent := some 0, construct := .simpleType (some "Key"), children := [⟨.restriction, 4⟩] },
    { parent := some 3, construct := .restriction (some (.simple 1)) { numbers := [(.length bound, limit)] } }]
  root := 0
  declarations := []

def restrictedClasses (bound : LengthBound) (limit : Int) : List Definition := [
  { name := "Code", superclass := some "string", checks := [.length .maximum 3] },
  { name := "string", aliased := some "String" },
  { name := "Key", superclass := some "Code", checks := [.length bound limit] }]

section Restricted
variable {bound : LengthBound} {limit : Int}

theorem restricted_offers : (restricted bound limit).Offers 1 "Code" ∧ (restricted bound limit).Offers 3 "Key" := by
  have top : ∀ type ∈ [1, 3], (restricted bound limit).IsTop type := fun type listed => ⟨.simpleType, by decide, listed⟩
  exact ⟨⟨top 1 (by decide), rfl, by cbv⟩, ⟨top 3 (by decide), rfl, by cbv⟩⟩

theorem restricted_restricts : (restricted bound limit).nodes.Restricts 3 1 := ⟨4, _, rfl, rfl⟩

theorem restricted_definitions : ∃ after,
    ((restricted bound limit).definitions {}).Gives (restricted bound limit).derivation
    (restrictedClasses bound limit) after := by
  have outcome : (((restricted bound limit).definitions {}).run (restricted bound limit).derivation).map Prod.fst =
      some (restrictedClasses bound limit) := by cbv
  obtain ⟨⟨definitions, after⟩, gives, rfl⟩ := Option.map_eq_some_iff.mp outcome
  exact ⟨after, gives⟩

theorem restricted_distinct : Definition.Distinct (restrictedClasses bound limit) := by
  simp [Definition.Distinct, restrictedClasses]

end Restricted

set_option maxRecDepth 8000 in
theorem short_loaded : (restricted .maximum 2).Loaded :=
  ⟨{}, .restricted .maximum "2", Array.replicate 7 none, by cbv⟩

set_option maxRecDepth 8000 in
theorem filled_loaded : (restricted .minimum 1).Loaded :=
  ⟨{}, .restricted .minimum "1", Array.replicate 7 none, by cbv⟩

theorem restriction_narrows_short : (restricted .maximum 2).Loaded ∧ (restricted .maximum 2).Offers 3 "Key" ∧
    (restricted .maximum 2).Offers 1 "Code" ∧ (restricted .maximum 2).nodes.Narrows 3 1 ∧
    (Instance.leaf "Key" "ab").fields = [] ∧
      (∃ after, ((restricted .maximum 2).definitions {}).Gives (restricted .maximum 2).derivation
        (restrictedClasses .maximum 2) after) ∧
        Definition.Distinct (restrictedClasses .maximum 2) ∧
          (Collection.ofList (restrictedClasses .maximum 2)).validate (.leaf "Key" "ab") = [] ∧
            (Collection.ofList (restrictedClasses .maximum 2)).validate (.leaf "Code" "ab") = [] := by
  obtain ⟨code, key⟩ := @restricted_offers .maximum 2
  obtain ⟨after, gives⟩ := @restricted_definitions .maximum 2
  have narrows : (restricted .maximum 2).nodes.Narrows 3 1 := ⟨restricted_restricts, by decide⟩
  have leaf : (Instance.leaf "Key" "ab").fields = [] := rfl
  have passes : (Collection.ofList (restrictedClasses .maximum 2)).validate (.leaf "Key" "ab") = [] := by cbv
  obtain ⟨_, _, narrowed⟩ := restriction_narrows short_loaded gives restricted_distinct key code leaf passes
  exact ⟨short_loaded, key, code, narrows, leaf, ⟨after, gives⟩, restricted_distinct, passes,
    narrowed (.single narrows)⟩

/-- The base is not looked at: a restriction that asks for one character accepts a text that is too long for its
base. -/
theorem base_unchecked : (restricted .minimum 1).Loaded ∧ (restricted .minimum 1).Offers 3 "Key" ∧
    (restricted .minimum 1).Offers 1 "Code" ∧ (restricted .minimum 1).nodes.Restricts 3 1 ∧
      (∃ after, ((restricted .minimum 1).definitions {}).Gives (restricted .minimum 1).derivation
        (restrictedClasses .minimum 1) after) ∧
        Definition.Distinct (restrictedClasses .minimum 1) ∧
          (Collection.ofList (restrictedClasses .minimum 1)).validate (.leaf "Key" "abcdef") = [] ∧
            (Collection.ofList (restrictedClasses .minimum 1)).validate (.leaf "Code" "abcdef") =
              ["Code: max_length(3)"] := by
  obtain ⟨code, key⟩ := @restricted_offers .minimum 1
  exact ⟨filled_loaded, key, code, restricted_restricts, restricted_definitions, restricted_distinct, by cbv, by cbv⟩

end Schema
end SchemaClasses
