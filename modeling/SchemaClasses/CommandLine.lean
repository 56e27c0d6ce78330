import SchemaClasses.Text.Quoted
import SchemaClasses.Work

/-! Commands over files: the classes of a schema, the classes of its top elements, and the objects of
an instance document with a verdict on them. -/

namespace SchemaClasses

inductive Command where
  | classes (schema : String) (asJson : Bool)
  | tags (schema : String)
  | objects (schema document : String) (asJson : Bool)
  deriving DecidableEq, Repr

/-- What stands behind the word of a command. -/
structure Arguments where
  paths : List String := []
  asJson : Bool := false
  deriving DecidableEq, Repr

namespace Arguments

def isFlag (argument : String) : Bool :=
  match argument.toList with
  | '-' :: _ :: _ => true
  | _ => false

/-- Reads further arguments. The only flag asks for JSON and stands at most once; behind `--` there
are only paths. -/
def read? (arguments : Arguments) : List String → Option Arguments
  | [] => some arguments
  | argument :: rest =>
    if argument = "--" then
      some { arguments with paths := arguments.paths ++ rest }
    else if argument = "-j" ∨ argument = "--json" then
      if arguments.asJson then none else read? { arguments with asJson := true } rest
    else if isFlag argument then none
    else read? { arguments with paths := arguments.paths ++ [argument] } rest

def ofList? (arguments : List String) : Option Arguments :=
  (read? {} arguments).filter fun read => read.paths.all (· != "")

end Arguments

namespace Command

def ofArguments? : List String → Option Command
  | [] => none
  | word :: rest =>
    match word, Arguments.ofList? rest with
    | "classes", some ⟨[schema], asJson⟩ => some (classes schema asJson)
    | "tags", some ⟨[schema], false⟩ => some (tags schema)
    | "objects", some ⟨[schema, document], asJson⟩ => some (objects schema document asJson)
    | _, _ => none

def paths : Command → List String
  | classes schema _ | tags schema => [schema]
  | objects schema document _ => [schema, document]

end Command

namespace Instance

/-- The line for an object, without its fields. -/
def heading (className tagName : String) (content : Option String) (attributes : Entries String) :
    String :=
  tagName ++ ": " ++ className
    ++ String.join (attributes.map fun (name, value) => " @" ++ name ++ "=" ++ Text.quoted value)
    ++ ((content.map fun text => " = " ++ Text.quoted text).getD "")

mutual

/-- One line for each object, deeper ones further in. -/
def outline (depth : Nat) : Instance → String
  | ⟨className, tagName, content, attributes, fields⟩ =>
    String.ofList (List.replicate (2 * depth) ' ')
      ++ heading className tagName content attributes ++ "\n" ++ outlineFields (depth + 1) fields

def outlineFields (depth : Nat) : List (String × List Instance) → String
  | [] => ""
  | (_, values) :: rest => outlineValues depth values ++ outlineFields depth rest

def outlineValues (depth : Nat) : List Instance → String
  | [] => ""
  | value :: rest => outline depth value ++ outlineValues depth rest

end

end Instance

/-- What a command prints and the code that it ends with. -/
structure Outcome where
  code : Nat := 0
  stdout : String := ""
  stderr : String := ""
  deriving DecidableEq, Repr

namespace Outcome

def line (text : String) : String :=
  text ++ "\n"

/-- The outcome for arguments that make no command. -/
def misused : Outcome where
  code := 2
  stderr := "usage: classes [--json] SCHEMA | tags SCHEMA | objects [--json] SCHEMA FILE\n"

def failed (error : Error) : Outcome where
  code := 1
  stderr := line ("Error: " ++ error.message)

def ofDefinitions (definitions : List Definition) (asJson : Bool) : Outcome where
  stdout :=
    if asJson then line (Json.array (definitions.map Definition.toJson)).pretty
    else "\n".intercalate (definitions.map Definition.text)

/-- The class of a builder, in a listing of tags. -/
def classLabel (builder : Builder) : String :=
  (builder.className <|> builder.builtin?.map Builtin.label).getD "-"

def ofTags (builders : Builders) (tags : Entries BuilderId) : Outcome where
  stdout := String.join (tags.map fun (tag, id) =>
    line (tag ++ " => " ++ classLabel (builders.get id)))

/-- The object as it was built, then the verdict of the definitions on it. -/
def ofInstance (definitions : Collection) (path : String) (object : Instance) (asJson : Bool) :
    Outcome :=
  let stdout := if asJson then line object.toJson.pretty else object.outline 0
  match definitions.validate object with
  | [] => { stdout, stderr := line ("✓ " ++ path ++ " is valid") }
  | failures => {
      code := 1
      stdout
      stderr := line ("✗ " ++ path ++ " is invalid")
        ++ String.join (failures.map fun failure => line ("  - " ++ failure)) }

end Outcome

/-- The content of a file, or the reason why it cannot be read. -/
abbrev Files := String → Except String (List UInt8)

def Files.read (files : Files) (phase : Phase) (path : String) : Work (List UInt8) :=
  Work.attempt phase ((files path).mapError (.unreadable path))

namespace Command

def work (files : Files) : Command → Work Outcome
  | classes path asJson => do
    let schema ← Work.schema .standard (← files.read .schema path)
    let definitions ← Work.definitions schema {}
    return .ofDefinitions (Collection.ofList definitions).definitions asJson
  | tags path => do
    let schema ← Work.schema .standard (← files.read .schema path)
    let (listed, builders) ← Work.derive schema do
      return (← schema.tags, (← get).builders)
    return .ofTags builders listed
  | objects schemaPath path asJson => do
    let schema ← Work.schema .standard (← files.read .schema schemaPath)
    let definitions ← Work.definitions schema {}
    match (← Work.objects schema (← files.read .document path)).2 with
    | none => throw ⟨.build, .noRootElement⟩
    | some object => return .ofInstance (.ofList definitions) path object asJson

def run (files : Files) (command : Command) : Outcome :=
  match (Work.perform (command.work files)).1 with
  | .ok outcome => outcome
  | .error failure => .failed failure.error

end Command

/-- The outcome of a command line. -/
def CommandLine.run (files : Files) (arguments : List String) : Outcome :=
  match Command.ofArguments? arguments with
  | some command => command.run files
  | none => .misused

end SchemaClasses
