import SchemaClasses.Check

/-! Definitions of generated classes: what a class is called, what it extends, its accessors and its
compiled checks, and the code that declares it. -/

namespace SchemaClasses

/-- How definitions are written. -/
structure Style where
  /-- Supertype of classes without a base. -/
  rootType : String := "AnyType"
  /-- Width of one level of indentation. -/
  indent : Nat := 4
  deriving DecidableEq, Repr

structure Accessor where
  name : String
  typeName : String
  deriving DecidableEq, Repr

structure Definition where
  name : String
  /-- The type that the class extends; a built-in type extends none. -/
  superclass : Option String := none
  /-- The type that a built-in type is another name for. -/
  aliased : Option String := none
  accessors : List Accessor := []
  checks : List Check := []
  /-- The rules that no check was compiled from. -/
  warnings : List String := []
  style : Style := {}
  deriving DecidableEq, Repr

namespace Definition

def isBuiltin (definition : Definition) : Bool :=
  definition.aliased.isSome

def hasValidityCheck (definition : Definition) : Bool :=
  !definition.checks.isEmpty

def accessor? (definition : Definition) (name : String) : Option Accessor :=
  definition.accessors.find? (·.name == name)

/-- Blanks for so many levels of indentation. -/
def pad (definition : Definition) (levels : Nat) : String :=
  String.ofList (List.replicate (levels * definition.style.indent) ' ')

/-- The superclass, unless it is the root of all classes. -/
def base? (definition : Definition) : Option String :=
  definition.superclass.filter (· != definition.style.rootType)

def aliasText (definition : Definition) (aliased : String) : String :=
  "#[allow(non_camel_case_types)]\npub type " ++ definition.name ++ " = " ++ aliased ++ ";\n"

def fieldLine (definition : Definition) (name typeName : String) : String :=
  definition.pad 1 ++ "pub " ++ name ++ ": " ++ typeName ++ ",\n"

def structText (definition : Definition) : String :=
  if definition.base?.isNone && definition.accessors.isEmpty then
    "pub struct " ++ definition.name ++ ";\n"
  else
    "pub struct " ++ definition.name ++ " \x7b\n"
      ++ ((definition.base?.map (definition.fieldLine "base")).getD "")
      ++ String.join (definition.accessors.map fun a => definition.fieldLine a.name a.typeName)
      ++ "\x7d\n"

/-- One line of a conjunction: all but the first begin with the operator, one level deeper. -/
def checkLine (definition : Definition) (index : Nat) (check : Check) : String :=
  (if index = 0 then definition.pad 2 else definition.pad 3 ++ "&& ") ++ check.expression ++ "\n"

def validityText (definition : Definition) : String :=
  "\nimpl " ++ definition.name ++ " \x7b\n"
    ++ definition.pad 1 ++ "pub fn is_valid(&self) -> bool \x7b\n"
    ++ String.join (definition.checks.zipIdx.map fun (check, i) => definition.checkLine i check)
    ++ definition.pad 1 ++ "\x7d\n\x7d\n"

/-- The code that declares the class. -/
def text (definition : Definition) : String :=
  match definition.aliased with
  | some aliased => definition.aliasText aliased
  | none =>
    definition.structText ++ if definition.hasValidityCheck then definition.validityText else ""

def accessorJson (accessor : Accessor) : Json :=
  .object [("name", .string accessor.name), ("type_name", .string accessor.typeName)]

def toJson (definition : Definition) : Json :=
  .object ([
    ("name", .string definition.name),
    ("superclass", (definition.superclass.map Json.string).getD .null)]
    ++ (definition.aliased.map fun aliased => ("builtin_type", Json.string aliased)).toList
    ++ [
    ("accessors", .array (definition.accessors.map accessorJson)),
    ("checks", .array (definition.checks.map Check.toJson)),
    ("warnings", .array (definition.warnings.map .string))])

end Definition
end SchemaClasses
