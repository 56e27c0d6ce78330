import SchemaClasses.Definition.Collection
import SchemaClasses.Graph.Building
import SchemaClasses.Graph.Reading
import SchemaClasses.Schema.Classes

/-! The whole work, in phases: a schema is read and its classes are defined, an instance document is
read, its object graph is laid out and built. -/

namespace SchemaClasses

inductive Phase where
  | schema
  | document
  | graph
  | build
  deriving DecidableEq, Repr

structure Failure where
  phase : Phase
  error : Error

/-- Work that may fail in one of its phases. What it reported before a failure stays. -/
abbrev Work := ExceptT Failure (StateM (List Notice))

namespace Work
variable {α : Type}

/-- The result of some work and all that it reported. -/
def perform (work : Work α) : Except Failure α × List Notice :=
  (ExceptT.run work).run []

def report (notices : List Notice) : Work Unit :=
  modify (· ++ notices)

def attempt (phase : Phase) (result : Except Error α) : Work α :=
  match result with
  | .ok value => return value
  | .error error => throw ⟨phase, error⟩

/-- The result of a derivation from nothing. -/
def derive (schema : Schema) (derivation : Derive α) : Work α :=
  match derivation.run schema.derivation with
  | some (value, derived) => do
    report derived.notices.toList
    return value
  | none => throw ⟨.schema, .circularReferences⟩

def schema (limits : Limits) (bytes : List UInt8) : Work Schema := do
  let loading := Schema.ofBytes limits bytes
  report loading.notices
  attempt .schema loading.result

def definitions (schema : Schema) (style : Style) : Work (List Definition) :=
  derive schema (schema.definitions style)

def document (limits : Limits) (bytes : List UInt8) : Work Document :=
  attempt .document (Document.read limits bytes)

def graph (schema : Schema) (document : Document) : Work Graph := do
  let (graph, notices) ← attempt .graph (Graph.ofDocument schema document)
  report notices
  return graph

def build (schema : Schema) (graph : Graph) : Work (Graph × Option Instance) := do
  let building := graph.build schema
  report building.notices
  return (building.graph, ← attempt .build building.result)

/-- The graph and the instances of a document that is read within the standard limits. -/
def objects (schema : Schema) (bytes : List UInt8) : Work (Graph × Option Instance) := do
  build schema (← graph schema (← document .standard bytes))

end Work
end SchemaClasses
