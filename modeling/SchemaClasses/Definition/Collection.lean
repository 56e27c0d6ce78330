import SchemaClasses.Definition.Basic

/-! Definitions by class name, and the validation of instances against them. -/

namespace SchemaClasses

/-- Definitions in the order they came, one for each name. -/
structure Collection where
  definitions : List Definition := []

namespace Collection

def find? (collection : Collection) (className : String) : Option Definition :=
  collection.definitions.find? (·.name == className)

def holds (collection : Collection) (className : String) : Bool :=
  collection.definitions.any (·.name == className)

def size (collection : Collection) : Nat :=
  collection.definitions.length

/-- Adds a definition unless there is one of that name, and tells whether it did. -/
def insert (collection : Collection) (definition : Definition) : Bool × Collection :=
  if collection.holds definition.name then (false, collection)
  else (true, ⟨collection.definitions ++ [definition]⟩)

def ofList (definitions : List Definition) : Collection :=
  definitions.foldl (fun collection definition => (collection.insert definition).2) {}

/-- What a check has to report of an instance, given the reports of the instances in its fields. -/
def checkReport (className : String) (object : Instance) (nested : List (String × List String))
    (check : Check) : List String :=
  match check with
  | .fieldValid field =>
    match (nested.lookup field).getD [] with
    | [] => []
    | failures => (className ++ "::" ++ field) :: failures
  | _ => if check.passes object then [] else [className ++ ": " ++ check.text]

mutual

/-- The failures of an instance and, through its fields, of every instance below it. An instance of
an unknown class has none. -/
def validate (collection : Collection) : Instance → List String
  | ⟨className, tagName, content, attributes, fields⟩ =>
    match collection.find? className with
    | none => []
    | some definition =>
      definition.checks.flatMap (checkReport definition.name
        ⟨className, tagName, content, attributes, fields⟩ (validateFields collection fields))

def validateFields (collection : Collection) :
    List (String × List Instance) → List (String × List String)
  | [] => []
  | (field, values) :: rest => (field, validateValues collection values) :: validateFields collection rest

def validateValues (collection : Collection) : List Instance → List String
  | [] => []
  | value :: rest => validate collection value ++ validateValues collection rest

end

def isValid (collection : Collection) (object : Instance) : Bool :=
  (collection.validate object).isEmpty

end Collection
end SchemaClasses
