import SchemaClasses.Decimal
import SchemaClasses.Instance
import SchemaClasses.Rule
import SchemaClasses.Text.Blank

/-! Compiled checks. A check can be evaluated on an instance, printed as an expression of generated
code, and named in a report. -/

namespace SchemaClasses

def ValueBound.symbol : ValueBound → String
  | minExclusive => ">"
  | minInclusive => ">="
  | maxExclusive => "<"
  | maxInclusive => "<="

/-- Whether a value that compares so with the limit keeps the bound. -/
def ValueBound.admits (bound : ValueBound) (order : Ordering) : Bool :=
  match bound with
  | minExclusive => order.isGT
  | minInclusive => order.isGE
  | maxExclusive => order.isLT
  | maxInclusive => order.isLE

def LengthBound.symbol : LengthBound → String
  | exact => "=="
  | minimum => ">="
  | maximum => "<="

def LengthBound.admits (bound : LengthBound) (order : Ordering) : Bool :=
  match bound with
  | exact => order.isEq
  | minimum => order.isGE
  | maximum => order.isLE

inductive Check where
  /-- Every value of the field is valid itself. -/
  | fieldValid (field : String)
  | value (bound : ValueBound) (limit : Int)
  /-- One point, and exactly this many digits behind it. -/
  | fractionDigits (count : Int)
  | length (bound : LengthBound) (limit : Int)
  | enumeration (values : List String)
  /-- Exactly one of the fields is present. -/
  | choice (fields : List String)
  deriving DecidableEq, Repr

namespace Check

def ofRule? : Rule → Option Check
  | .numeric (.value bound) limit => some (value bound limit)
  | .numeric .fractionDigits count => some (fractionDigits count)
  | .numeric (.length bound) limit => some (length bound limit)
  | .enumerations values => some (enumeration values)
  | .choice options => some (choice options)
  | .numeric .totalDigits _ | .whitespace _ | .pattern _ => none

/-- The number that a text without its outer blanks reads as. -/
def decimal? (text : String) : Option Decimal :=
  Decimal.read? (Text.trimChars text.toList)

/-- The two parts of a text that holds exactly one point. -/
def halves? (text : List Char) : Option (List Char × List Char) :=
  match Text.pieces (· = '.') text with
  | [whole, fraction] => some (whole, fraction)
  | _ => none

/-- Whether an instance passes by its own text and fields. The validity of fields is the business of
the collection that knows their classes. -/
def passes (object : Instance) : Check → Bool
  | fieldValid _ => true
  | value bound limit =>
    match decimal? object.text with
    | some number => bound.admits (number.compareInt limit)
    | none => false
  | fractionDigits count =>
    match halves? (Text.trimChars object.text.toList) with
    | some (_, fraction) => !fraction.isEmpty && (fraction.length : Int) = count
    | none => false
  | length bound limit => bound.admits (compare (object.text.length : Int) limit)
  | enumeration values => values.contains object.text
  | choice fields => (fields.filter object.hasField).length = 1

def label : Check → String
  | fieldValid _ => "field_valid"
  | value bound _ => (NumericFacet.value bound).label
  | fractionDigits _ => NumericFacet.fractionDigits.label
  | length bound _ => (NumericFacet.length bound).label
  | enumeration _ => "enumeration"
  | choice _ => "choice"

def parameterText : Check → String
  | fieldValid field => field
  | value _ limit | length _ limit => toString limit
  | fractionDigits count => toString count
  | enumeration values => "|".intercalate values
  | choice fields => "|".intercalate fields

/-- The check as a report names it. -/
def text (check : Check) : String :=
  check.label ++ "(" ++ check.parameterText ++ ")"

def expression : Check → String
  | fieldValid field => "self." ++ field ++ ".is_valid()"
  | value bound limit =>
    "self.decimal_value() " ++ bound.symbol ++ " Decimal::from(" ++ toString limit ++ ")"
  | fractionDigits count =>
    "matches!(self.text().split('.').collect::<Vec<_>>().as_slice(), "
      ++ "[_, f] if !f.is_empty() && f.chars().count() == " ++ toString count ++ ")"
  | length bound limit => "self.text().chars().count() " ++ bound.symbol ++ " " ++ toString limit
  | enumeration values => Text.quotedList values ++ ".contains(&self.text())"
  | choice fields =>
    "[" ++ ", ".intercalate (fields.map fun field => "self." ++ field ++ ".is_present()")
      ++ "].iter().filter(|present| **present).count() == 1"

def parameterJson : Check → Json
  | fieldValid field => .string field
  | value _ limit | length _ limit => .number limit
  | fractionDigits count => .number count
  | enumeration values => .array (values.map .string)
  | choice fields => .array (fields.map .string)

def toJson (check : Check) : Json :=
  .object [("check", .string check.label), ("param", check.parameterJson)]

end Check
end SchemaClasses
