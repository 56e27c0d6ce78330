/-! Validation rules. Most come from the facets of a type; a choice rule comes from a model group of
which one alternative must be taken. -/

namespace SchemaClasses

/-- How a decimal value is bounded. -/
inductive ValueBound where
  | minExclusive
  | minInclusive
  | maxExclusive
  | maxInclusive
  deriving DecidableEq, Repr

/-- How the number of characters is bounded. -/
inductive LengthBound where
  | exact
  | minimum
  | maximum
  deriving DecidableEq, Repr

/-- The facets whose value is a whole number. -/
inductive NumericFacet where
  | value (bound : ValueBound)
  | totalDigits
  | fractionDigits
  | length (bound : LengthBound)
  deriving DecidableEq, Repr

namespace NumericFacet

def all : List NumericFacet := [
  value .minExclusive, value .minInclusive, value .maxExclusive, value .maxInclusive,
  totalDigits, fractionDigits, length .exact, length .minimum, length .maximum]

def tag : NumericFacet → String
  | value .minExclusive => "minExclusive"
  | value .minInclusive => "minInclusive"
  | value .maxExclusive => "maxExclusive"
  | value .maxInclusive => "maxInclusive"
  | totalDigits => "totalDigits"
  | fractionDigits => "fractionDigits"
  | length .exact => "length"
  | length .minimum => "minLength"
  | length .maximum => "maxLength"

def label : NumericFacet → String
  | value .minExclusive => "min_exclusive"
  | value .minInclusive => "min_inclusive"
  | value .maxExclusive => "max_exclusive"
  | value .maxInclusive => "max_inclusive"
  | totalDigits => "total_digits"
  | fractionDigits => "fraction_digits"
  | length .exact => "length"
  | length .minimum => "min_length"
  | length .maximum => "max_length"

end NumericFacet

inductive Rule where
  | numeric (facet : NumericFacet) (limit : Int)
  | enumerations (values : List String)
  | whitespace (mode : String)
  | pattern (expression : String)
  /-- Exactly one of the named fields is present. -/
  | choice (options : List String)
  deriving DecidableEq, Repr

def Rule.label : Rule → String
  | .numeric facet _ => facet.label
  | .enumerations _ => "enumerations"
  | .whitespace _ => "whitespace"
  | .pattern _ => "pattern"
  | .choice _ => "choice"

/-- The facets that a restriction states, the numeric ones in the order of `NumericFacet.all`. -/
structure Facets where
  numbers : List (NumericFacet × Int) := []
  enumerations : Option (List String) := none
  whitespace : Option String := none
  pattern : Option String := none
  deriving DecidableEq, Repr

namespace Facets

def isEmpty (facets : Facets) : Bool :=
  facets = {}

def rules (facets : Facets) : List Rule :=
  facets.numbers.map (fun (facet, limit) => .numeric facet limit)
    ++ (facets.enumerations.map Rule.enumerations).toList
    ++ (facets.whitespace.map Rule.whitespace).toList
    ++ (facets.pattern.map Rule.pattern).toList

end Facets
end SchemaClasses
