import SchemaClasses.Builder.Basic
import SchemaClasses.Definition.Basic
import SchemaClasses.Notice

/-! Definitions made from builders. A builder for a built-in type becomes an alias, one with a class
name a class; any other has no definition. -/

namespace SchemaClasses

namespace Style

/-- The type of a field that is at most so many lists deep. A list is a vector of the type of its items. -/
def typeNameWithin? (style : Style) (builders : Builders) (depth : Nat) (id : BuilderId) : Option String :=
  let builder := builders.get id
  if builder.isList then
    match depth, builder.item with
    | 0, _ => none
    | _ + 1, none => some ("Vec<" ++ style.rootType ++ ">")
    | depth + 1, some item => (style.typeNameWithin? builders depth item).map fun name => "Vec<" ++ name ++ ">"
  else
    some (((builder.builtin?.map Builtin.label) <|> builder.className).getD style.rootType)

/-- The type of a field. Lists that have an end are nested at most as deep as there are builders. The type of
a list that has none cannot be written down. -/
def typeName? (style : Style) (builders : Builders) (id : BuilderId) : Option String :=
  style.typeNameWithin? builders builders.size id

def superclass (style : Style) (builders : Builders) (id : BuilderId) : String :=
  match (builders.get id).base with
  | none => style.rootType
  | some base =>
    let builder := builders.get base
    (builder.className <|> builder.builtin?.map Builtin.label).getD style.rootType

end Style

/-- A definition and what was left out of it. -/
structure Rendering where
  definition : Definition
  notices : List Notice

namespace Rendering

def ofBuiltin (style : Style) (type : Builtin) : Rendering where
  definition := { name := type.label, aliased := some type.aliased, style }
  notices := []

/-- Fields without a name have no accessor. -/
def named (builders : Builders) (fields : List BuilderId) : List BuilderId :=
  fields.filter fun field => (builders.fieldName? field).isSome

def unnamed (builders : Builders) (fields : List BuilderId) : List BuilderId :=
  fields.filter fun field => (builders.fieldName? field).isNone

def unsupported (rules : List Rule) : List Rule :=
  rules.filter fun rule => (Check.ofRule? rule).isNone

def warning (className : String) (rule : Rule) : String :=
  className ++ ": unsupported validation '" ++ rule.label ++ "' omitted"

def accessor? (style : Style) (builders : Builders) (field : BuilderId) : Option Accessor := do
  return ⟨← builders.fieldName? field, ← style.typeName? builders field⟩

/-- The accessors of fields, if all their types can be written down. -/
def accessors? (style : Style) (builders : Builders) (fields : List BuilderId) : Option (List Accessor) :=
  (named builders fields).mapM (accessor? style builders)

def ofClass (style : Style) (builders : Builders) (id : BuilderId) (className : String) (accessors : List Accessor) :
    Rendering :=
  let rules := builders.rules id
  { definition := {
      name := className
      superclass := some (style.superclass builders id)
      accessors
      checks := accessors.map (.fieldValid ·.name) ++ rules.filterMap Check.ofRule?
      warnings := (unsupported rules).map (warning className)
      style }
    notices :=
      (unnamed builders (builders.get id).fields).map (fun field => .unnamedField className field.text)
        ++ (unsupported rules).map fun rule => .omittedRule className rule.label }

def isDefined (builders : Builders) (id : BuilderId) : Bool :=
  (builders.get id).builtin?.isSome || (builders.get id).className.isSome

/-- The definition of a builder, if it has one and it can be written down. -/
def ofBuilder? (style : Style) (builders : Builders) (id : BuilderId) : Option Rendering :=
  match (builders.get id).builtin? with
  | some type => some (ofBuiltin style type)
  | none => do
    let className ← (builders.get id).className
    let accessors ← accessors? style builders (builders.get id).fields
    return ofClass style builders id className accessors

/-- The definitions of all builders that have one, if all of these can be written down. -/
def ofBuilders? (style : Style) (builders : Builders) (ids : List BuilderId) : Option (List Rendering) :=
  (ids.filter (isDefined builders)).mapM (ofBuilder? style builders)

end Rendering
end SchemaClasses
