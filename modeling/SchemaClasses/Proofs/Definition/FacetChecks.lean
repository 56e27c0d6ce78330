import SchemaClasses.Proofs.Decimal
import SchemaClasses.Proofs.Definition.Narrowing
import SchemaClasses.Proofs.Text.Pieces

/-! Facets and their checks. Bounds on the value are checked against the number that the text without its outer
blanks reads as, and everything but fraction digits otherwise against the text as it is. What cannot be checked
is warned about. -/

namespace SchemaClasses

namespace ValueBound

/-- How a number compares with the limit, whole or not. -/
def Holds (number : ℚ) (limit : Int) : ValueBound → Prop
  | minExclusive => limit < number
  | minInclusive => limit ≤ number
  | maxExclusive => number < limit
  | maxInclusive => number ≤ limit

theorem admits_compareInt {bound : ValueBound} {number : Decimal} {limit : Int} :
    bound.admits (number.compareInt limit) = true ↔ bound.Holds number.value limit := by
  rw [Decimal.compareInt, admits_compare]
  cases bound with
  | minExclusive => exact Decimal.lt_signed_iff
  | minInclusive => exact not_lt.symm.trans (Decimal.signed_lt_iff.not.trans not_lt)
  | maxExclusive => exact Decimal.signed_lt_iff
  | maxInclusive => exact not_lt.symm.trans (Decimal.lt_signed_iff.not.trans not_lt)

end ValueBound

/-- One point stands in the text, and exactly so many digits behind it, at least one. -/
def HasFraction (text : List Char) (count : Int) : Prop :=
  ∃ whole fraction, text = whole ++ '.' :: fraction ∧ '.' ∉ whole ∧ (∀ c ∈ fraction, c.isDigit) ∧ fraction ≠ [] ∧
    (fraction.length : Int) = count

theorem Numeral.halves (numeral : Numeral) :
    Check.halves? numeral.chars = numeral.fraction.map fun fraction =>
    (numeral.sign.chars ++ numeral.whole, fraction) := by
  have digits {chars : List Char} (proper : ∀ c ∈ chars, c.isDigit) : '.' ∉ chars :=
    fun listed => absurd (proper _ listed) (by decide)
  have sign : '.' ∉ numeral.sign.chars ++ numeral.whole := by
    rw [List.mem_append, not_or]
    refine ⟨?_, digits numeral.whole_digits⟩
    cases numeral.sign <;> decide
  have proper := numeral.fraction_digits
  rw [chars, body, ← List.append_assoc]
  cases same : numeral.fraction with
  | none => simpa using Check.halves?_eq_none sign
  | some fraction =>
    rw [same] at proper
    exact Check.halves?_eq_some_iff.mpr ⟨rfl, sign, digits proper⟩

namespace Check
variable {object : Instance} {number : Option ℚ}

theorem passes_value {bound : ValueBound} {limit : Int}
    (reads : Decimal.Reads (Text.trimChars object.text.toList) number) :
    (value bound limit).passes object = true ↔ ∃ exact, number = some exact ∧ bound.Holds exact limit := by
  have same : (decimal? object.text).map Decimal.value = number := reads.read
  rw [passes, ← same]
  cases decimal? object.text with
  | none => simp
  | some number => simp [ValueBound.admits_compareInt]

theorem passes_fractionDigits {count : Int} : (fractionDigits count).passes object = true ↔ ∃ whole fraction,
    halves? (Text.trimChars object.text.toList) = some (whole, fraction) ∧ fraction ≠ [] ∧
    (fraction.length : Int) = count := by
  rw [passes]
  cases halves? (Text.trimChars object.text.toList) with
  | none => simp
  | some halves =>
    obtain ⟨whole, fraction⟩ := halves
    simp

theorem passes_fractionDigits_numeral {count : Int} {numeral : Numeral}
    (written : Text.trimChars object.text.toList = numeral.chars) :
    (fractionDigits count).passes object = true ↔ HasFraction (Text.trimChars object.text.toList) count := by
  rw [passes_fractionDigits]
  constructor
  · rintro ⟨whole, fraction, halves, filled, counted⟩
    obtain ⟨same, first, _⟩ := halves?_eq_some_iff.mp halves
    have proper := numeral.fraction_digits
    rw [written, numeral.halves, Option.map_eq_some_iff] at halves
    obtain ⟨digits, behind, same'⟩ := halves
    cases same'
    rw [behind] at proper
    exact ⟨_, _, same, first, proper, filled, counted⟩
  · rintro ⟨whole, fraction, same, first, proper, filled, counted⟩
    have single : '.' ∉ fraction := fun listed => absurd (proper _ listed) (by decide)
    exact ⟨whole, fraction, halves?_eq_some_iff.mpr ⟨same, first, single⟩, filled, counted⟩

theorem passes_length {bound : LengthBound} {limit : Int} :
    (length bound limit).passes object = true ↔ bound.Keeps object.text.toList.length limit := by
  rw [passes, LengthBound.admits_compare, String.length_toList]

theorem passes_enumeration {values : List String} : (enumeration values).passes object = true ↔ object.text ∈ values :=
  List.contains_iff_mem

end Check

/-- What a facet with a number asks of a text. The number that the text reads as is given; total digits ask nothing. -/
def NumericFacet.Allows (text : String) (number : Option ℚ) (limit : Int) : NumericFacet → Prop
  | .value bound => ∃ exact, number = some exact ∧ bound.Holds exact limit
  | .totalDigits => True
  | .fractionDigits => HasFraction (Text.trimChars text.toList) limit
  | .length bound => bound.Keeps text.toList.length limit

namespace Facets

/-- What the facets ask of a text. White space and patterns ask nothing. -/
structure Allows (facets : Facets) (text : String) (number : Option ℚ) : Prop where
  numbers : ∀ facet limit, (facet, limit) ∈ facets.numbers → facet.Allows text number limit
  enumerations : ∀ values, facets.enumerations = some values → text ∈ values

def checkedNumbers (facets : Facets) : List (NumericFacet × Int) :=
  facets.numbers.filter fun (facet, _) => facet ≠ .totalDigits

def unchecked (facets : Facets) : List String :=
  (facets.numbers.filter fun (facet, _) => facet = .totalDigits).map (fun _ => "total_digits")
    ++ (facets.whitespace.map fun _ => "whitespace").toList ++ (facets.pattern.map fun _ => "pattern").toList

variable {facets : Facets} {object : Instance} {number : Option ℚ}

/-- What is made of a number passes if the facet allows the text. Only in a numeral, what stands behind a point
is known to be digits. -/
theorem numeric_passes (reads : Decimal.Reads (Text.trimChars object.text.toList) number)
    {facet : NumericFacet} {limit : Int} (spelled : facet = .fractionDigits → number ≠ none) :
    (∀ check, Check.ofRule? (.numeric facet limit) = some check → check.passes object) ↔
      facet.Allows object.text number limit := by
  cases facet with
  | value bound => simp [Check.ofRule?, NumericFacet.Allows, Check.passes_value reads]
  | totalDigits => simp [Check.ofRule?, NumericFacet.Allows]
  | fractionDigits =>
    cases reads with
    | numeral numeral written few =>
      simp [Check.ofRule?, NumericFacet.Allows, Check.passes_fractionDigits_numeral written]
    | unread fails => exact absurd rfl (spelled rfl)
  | length bound => simp only [Check.ofRule?, Option.some.injEq, forall_eq', NumericFacet.Allows, Check.passes_length]

theorem rules_pass (reads : Decimal.Reads (Text.trimChars object.text.toList) number)
    (spelled : number = none → ∀ limit, (.fractionDigits, limit) ∉ facets.numbers) :
    (∀ check ∈ facets.rules.filterMap Check.ofRule?, check.passes object) ↔ facets.Allows object.text number := by
  have numeric {facet limit} (listed : (facet, limit) ∈ facets.numbers) :=
    @numeric_passes object number reads facet limit fun same absent => spelled absent limit (same ▸ listed)
  constructor
  · intro pass
    have rule (rule : Rule) (listed : rule ∈ facets.rules) {check : Check} (made : Check.ofRule? rule = some check) :
        check.passes object := pass check (List.mem_filterMap.mpr ⟨rule, listed, made⟩)
    refine ⟨fun facet limit listed => (numeric listed).mp fun check made => rule _ ?_ made, fun values stated => ?_⟩
    · simp [rules, listed]
    · exact Check.passes_enumeration.mp (rule (.enumerations values) (by simp [rules, stated]) rfl)
  · intro allows check listed
    obtain ⟨rule, listed, made⟩ := List.mem_filterMap.mp listed
    simp only [rules, List.mem_append, List.mem_map, Option.mem_toList, Option.map_eq_some_iff] at listed
    rcases listed with ((⟨⟨facet, limit⟩, stated, rfl⟩ | ⟨values, stated, rfl⟩) | ⟨mode, _, rfl⟩) | ⟨expression, _, rfl⟩
    · exact (numeric stated).mpr (allows.numbers facet limit stated) check made
    · cases made
      exact Check.passes_enumeration.mpr (allows.enumerations values stated)
    · cases made
    · cases made

theorem isNone_ofRule? (entry : NumericFacet × Int) :
    (Check.ofRule? (.numeric entry.1 entry.2)).isNone = decide (entry.1 = .totalDigits) := by
  obtain ⟨facet, limit⟩ := entry
  cases facet <;> rfl

theorem unsupported_labels : (Rendering.unsupported facets.rules).map Rule.label = facets.unchecked := by
  have numeric : ((facets.numbers.map fun (facet, limit) => Rule.numeric facet limit).filter fun rule =>
      (Check.ofRule? rule).isNone).map Rule.label =
        (facets.numbers.filter fun (facet, _) => facet = .totalDigits).map fun _ => "total_digits" := by
    have same : (fun rule => (Check.ofRule? rule).isNone) ∘ (fun (facet, limit) => Rule.numeric facet limit) =
        fun entry : NumericFacet × Int => decide (entry.1 = .totalDigits) := funext isNone_ofRule?
    rw [List.filter_map, List.map_map, same]
    refine List.map_congr_left fun (facet, limit) listed => ?_
    obtain rfl : facet = .totalDigits := by simpa using (List.mem_filter.mp listed).2
    rfl
  rw [Rendering.unsupported, rules, unchecked, List.filter_append, List.filter_append,
    List.filter_append, List.map_append, List.map_append, List.map_append, numeric]
  cases facets.enumerations <;> cases facets.whitespace <;> cases facets.pattern <;> simp [Check.ofRule?, Rule.label]

theorem checks_length : (facets.rules.filterMap Check.ofRule?).length =
    facets.checkedNumbers.length + facets.enumerations.toList.length := by
  have numeric : (facets.numbers.map fun (facet, limit) => Rule.numeric facet limit).countP
    (fun rule => (Check.ofRule? rule).isSome) =
      facets.checkedNumbers.length := by
    rw [List.countP_map, checkedNumbers, ← List.countP_eq_length_filter]
    refine List.countP_congr fun entry _ => ?_
    have none := isNone_ofRule? entry
    cases made : Check.ofRule? (.numeric entry.1 entry.2) <;> simp_all
  rw [List.length_filterMap_eq_countP, rules, List.countP_append, List.countP_append, List.countP_append, numeric]
  cases facets.enumerations <;> cases facets.whitespace <;> cases facets.pattern <;> rfl

end Facets

/-- A definition checks the facets, and warns of those that it does not check. -/
structure Definition.Enforces (definition : Definition) (facets : Facets) (object : Instance)
    (number : Option ℚ) : Prop where
  passes : (∀ check ∈ definition.checks, check.passes object) ↔ facets.Allows object.text number
  /-- Besides the checks that fields are valid. -/
  checks : definition.checks.length =
    definition.accessors.length + (facets.checkedNumbers.length + facets.enumerations.toList.length)
  warnings : definition.warnings =
    facets.unchecked.map fun label => definition.name ++ ": unsupported validation '" ++ label ++ "' omitted"

theorem Rendering.ofClass_enforces {facets : Facets} {object : Instance} {number : Option ℚ}
    (reads : Decimal.Reads (Text.trimChars object.text.toList) number)
    (spelled : number = none → ∀ limit, (.fractionDigits, limit) ∉ facets.numbers)
    {builders : Builders} {id : BuilderId} (stated : builders.rules id = facets.rules) (style : Style)
    (className : String) (accessors : List Accessor) :
    (ofClass style builders id className accessors).definition.Enforces facets object number := by
  constructor
  · have fields : ∀ accessor ∈ accessors, (Check.fieldValid accessor.name).passes object := fun _ _ => rfl
    simp only [ofClass, stated, List.mem_append, or_imp, forall_and, List.forall_mem_map]
    rw [← Facets.rules_pass reads spelled]
    exact and_iff_right fields
  · simp only [ofClass, stated, List.length_append, List.length_map, Facets.checks_length]
  · simp only [ofClass, stated, ← Facets.unsupported_labels, List.map_map]
    rfl

/-- Facets are checked as they are meant, for every set of facets and every text that is a numeral of at most 28
digits, or is not read as a number and need not have fraction digits. This holds of whatever class is rendered
with rules for the facets, as it is where the types of its fields have an end, and so of the class of a simple
type that states them. -/
theorem Facets.enforced (facets : Facets) {object : Instance} {number : Option ℚ}
    (reads : Decimal.Reads (Text.trimChars object.text.toList) number)
    (spelled : number = none → ∀ limit, (.fractionDigits, limit) ∉ facets.numbers) (style : Style) :
    (∀ (builders : Builders) (id : BuilderId) (className : String), (builders.get id).IsClass className →
      builders.rules id = facets.rules →
        (builders.InRange → id < builders.size →
          ((Rendering.ofBuilder? style builders id).isSome ↔ builders.FieldsEnd id)) ∧
        ∀ rendering, Rendering.ofBuilder? style builders id = some rendering →
          rendering.definition.name = className ∧ rendering.definition.Enforces facets object number) ∧
    ∀ (schema : Schema) (type : NodeId) (className : String) (definitions : List Definition) (after : Derivation),
      schema.Loaded → schema.Offers type className → schema.nodes.facets type = facets →
        (schema.definitions style).Gives schema.derivation definitions after →
          ∃ own ∈ definitions, own.name = className ∧ after.Defines style type own ∧
            own.Enforces facets object number := by
  constructor
  · intro builders id className isClass stated
    have defined : Rendering.isDefined builders id := by simp [Rendering.isDefined, isClass.named]
    refine ⟨fun range inside => Rendering.isSome_ofBuilder?_iff range inside defined, fun rendering rendered => ?_⟩
    obtain ⟨accessors, _, rfl⟩ := isClass.rendered_iff.mp rendered
    exact ⟨rfl, Rendering.ofClass_enforces reads spelled stated style className accessors⟩
  · rintro schema type className definitions after loaded offers rfl gives
    have isType : (schema.nodes.kindOf type).isType := by rw [offers.kind]; rfl
    obtain ⟨own, listed, same, builder, _, found, rendered, rfl⟩ :=
      Schema.type_defined loaded Schema.tenable_start gives offers.top isType offers.called
    obtain ⟨held, _⟩ := (Schema.definitions_safe loaded style).grows Schema.tenable_start gives
    have isClass : (after.builders.get builder).IsClass className :=
      held.classed.types type builder className isType (offers.top.not_embedded loaded) offers.called found
    obtain ⟨accessors, _, rfl⟩ := isClass.rendered_iff.mp rendered
    have stated := Schema.definitions_facets loaded gives offers found
    exact ⟨_, listed, same, ⟨builder, _, found, rendered, rfl⟩,
      Rendering.ofClass_enforces reads spelled stated style className accessors⟩

/-- A type `Price` with bounds on the value, on the digits and on the characters, and a mode for white space. -/
def Document.priced : Document where
  elements := #[
    { name := "schema", children := #[1] },
    { name := "simpleType", attributes := [("name", "Price")], children := #[2], parent := some 0 },
    { name := "restriction", attributes := [("base", "decimal")], children := #[3, 4, 5, 6, 7, 8], parent := some 1 },
    { name := "minInclusive", attributes := [("value", "0")], parent := some 2 },
    { name := "maxExclusive", attributes := [("value", "10")], parent := some 2 },
    { name := "totalDigits", attributes := [("value", "3")], parent := some 2 },
    { name := "fractionDigits", attributes := [("value", "2")], parent := some 2 },
    { name := "maxLength", attributes := [("value", "6")], parent := some 2 },
    { name := "whiteSpace", attributes := [("value", "collapse")], parent := some 2 }]
  root := some 0

def Facets.priced : Facets where
  numbers := [(.value .minInclusive, 0), (.value .maxExclusive, 10), (.totalDigits, 3), (.fractionDigits, 2),
    (.length .maximum, 6)]
  whitespace := some "collapse"

def Numeral.priced : Numeral where
  sign := .none
  whole := ['9']
  fraction := some ['5', '0']
  whole_digits := List.forall_mem_singleton.mpr rfl
  fraction_digits := List.forall_mem_cons.mpr ⟨rfl, List.forall_mem_singleton.mpr rfl⟩
  some_digit := List.cons_ne_nil _ _

namespace Schema

def priced : Schema where
  nodes := #[
    { construct := .schema none, children := [⟨.simpleType, 1⟩] },
    { parent := some 0, construct := .simpleType (some "Price"), children := [⟨.restriction, 2⟩] },
    { parent := some 1, construct := .restriction (some (.builtin .decimal)) .priced }]
  root := 0
  declarations := []

set_option maxRecDepth 8000 in
theorem priced_loaded : priced.Loaded :=
  ⟨{}, .priced, Array.replicate 9 none, by cbv⟩

theorem priced_definitions :
    ∃ definitions after, (priced.definitions {}).Gives priced.derivation definitions after := by
  have answers : ((priced.definitions {}).run priced.derivation).isSome = true := by cbv
  obtain ⟨⟨definitions, after⟩, gives⟩ := Option.isSome_iff_exists.mp answers
  exact ⟨definitions, after, gives⟩

end Schema

theorem Facets.priced_enforced :
    Decimal.Reads (Text.trimChars (Instance.leaf "Price" " 9.50").text.toList) (some Numeral.priced.value) ∧
    Schema.priced.Loaded ∧ Schema.priced.Offers 1 "Price" ∧ Schema.priced.nodes.facets 1 = .priced ∧
      ∃ definitions after, (Schema.priced.definitions {}).Gives Schema.priced.derivation definitions after ∧
        ∃ own ∈ definitions, own.name = "Price" ∧ after.Defines {} 1 own ∧
          own.Enforces .priced (.leaf "Price" " 9.50") (some Numeral.priced.value) := by
  have reads : Decimal.Reads (Text.trimChars (Instance.leaf "Price" " 9.50").text.toList) (some Numeral.priced.value) :=
    .numeral .priced (by decide) (by decide)
  have offers : Schema.priced.Offers 1 "Price" := ⟨⟨.simpleType, by decide, by decide⟩, rfl, by cbv⟩
  have stated : Schema.priced.nodes.facets 1 = .priced := rfl
  obtain ⟨definitions, after, gives⟩ := Schema.priced_definitions
  obtain ⟨_, declared⟩ := Facets.enforced .priced reads (fun absent => absurd absent (Option.some_ne_none _)) {}
  exact ⟨reads, Schema.priced_loaded, offers, stated, definitions, after, gives,
    declared _ _ _ _ _ Schema.priced_loaded offers stated gives⟩

end SchemaClasses
