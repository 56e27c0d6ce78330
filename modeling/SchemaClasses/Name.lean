import SchemaClasses.Text.Blank
import SchemaClasses.Text.DecimalDigit
import SchemaClasses.Text.LetterCase

/-! Names in a schema and the forms they take in generated code. A name may carry a namespace label
before its first colon; only the part after it counts. Classes are named in camel case, fields in
snake case. -/

namespace SchemaClasses.Name
open Text

/-- What stands before the first colon, if there is one, and what follows it. -/
def splitChars : List Char → Option (List Char) × List Char
  | [] => (none, [])
  | c :: rest =>
    if c = ':' then (some [], rest)
    else
      match splitChars rest with
      | (some label, localChars) => (some (c :: label), localChars)
      | (none, localChars) => (none, c :: localChars)

def localChars (name : List Char) : List Char :=
  (splitChars name).2

/-- The namespace label of a name and its local part. -/
def split (name : String) : Option String × String :=
  let (label, rest) := splitChars name.toList
  (label.map String.ofList, String.ofList rest)

def localPart (name : String) : String :=
  (split name).2

def separatesWords (c : Char) : Bool :=
  c = '_' || c = '-' || c = '.' || isBlank c

/-- The words of a name, each with its first letter in upper case, without what separates them. -/
def camelChars (name : List Char) : List Char :=
  ((pieces separatesWords name).filter (!·.isEmpty)).flatMap capitalise

def camel (name : String) : String :=
  String.ofList (camelChars (localChars name.toList))

def isCapitalOrDigit (c : Char) : Bool :=
  c.isUpper || isDecimalDigit c

def isSmallOrDigit (c : Char) : Bool :=
  c.isLower || isDecimalDigit c

/-- A capital with a small letter after it. -/
def startsWord : List Char → Bool
  | c :: d :: _ => c.isUpper && d.isLower
  | _ => false

/-- Length of the longest run of capitals and digits that leaves the start of a word behind it. -/
def acronymLength : List Char → Option Nat
  | [] => none
  | c :: rest =>
    if isCapitalOrDigit c then
      match acronymLength rest with
      | some n => some (n + 1)
      | none => if startsWord rest then some 1 else none
    else none

/-- Where a text is cut: how many characters stand before the cut, and how many after it are used up
with them. -/
abbrev Boundary := List Char → Option (Nat × Nat)

def acronymBoundary : Boundary := fun text =>
  (acronymLength text).map (·, 2)

def wordBoundary : Boundary
  | c :: d :: _ => if isSmallOrDigit c && d.isUpper then some (1, 1) else none
  | _ => none

/-- Writes an underscore at every boundary. The search goes on behind the characters that the last
boundary used up. -/
def cutAt (boundary : Boundary) : List Char → List Char
  | [] => []
  | c :: rest =>
    match boundary (c :: rest) with
    | some (before, after) =>
      (c :: rest).take before ++ '_' :: ((c :: rest).drop before).take after
        ++ cutAt boundary (rest.drop (before + after - 1))
    | none => c :: cutAt boundary rest
  termination_by text => text.length
  decreasing_by all_goals (simp only [List.length_cons, List.length_drop]; omega)

def isSeparator (c : Char) : Bool :=
  c = '-' || c = '.' || isBlank c

/-- One underscore for each run of separators. -/
def joinSeparators : List Char → List Char
  | [] => []
  | c :: rest =>
    if isSeparator c then '_' :: joinSeparators (rest.dropWhile isSeparator)
    else c :: joinSeparators rest
  termination_by text => text.length
  decreasing_by
    · have := (List.dropWhile_sublist isSeparator (l := rest)).length_le
      simp only [List.length_cons]; omega
    · simp

def snakeChars (name : List Char) : List Char :=
  toLower (joinSeparators (cutAt wordBoundary (cutAt acronymBoundary name)))

def snake (name : String) : String :=
  String.ofList (snakeChars (localChars name.toList))

/-- Keywords that a generated field may not be called, but that can be escaped. -/
def keywords : List String := [
  "as", "async", "await", "break", "const", "continue", "dyn", "else", "enum", "extern", "false",
  "fn", "for", "if", "impl", "in", "let", "loop", "match", "mod", "move", "mut", "pub", "ref",
  "return", "static", "struct", "trait", "true", "type", "unsafe", "use", "where", "while",
  "abstract", "become", "box", "do", "final", "macro", "override", "priv", "typeof", "unsized",
  "virtual", "yield", "try"]

/-- Keywords that not even an escape makes a field name. -/
def pathKeywords : List String := ["crate", "self", "super"]

/-- Name of the field that holds what a schema calls `name`. -/
def field (name : String) : String :=
  let plain := snake name
  if plain ∈ pathKeywords then plain ++ "_"
  else if plain ∈ keywords then "r#" ++ plain
  else plain

end SchemaClasses.Name
