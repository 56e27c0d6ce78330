import SchemaClasses.Text.Quoted

/-! Notices: what the work reports beside its results. Each has a level, a sentence and named
details. -/

namespace SchemaClasses

inductive Level where
  | warn
  | debug
  | trace
  deriving DecidableEq, Repr

namespace Level

def label : Level → String
  | warn => "WARN"
  | debug => "DEBUG"
  | trace => "TRACE"

def rank : Level → Nat
  | warn => 0
  | debug => 1
  | trace => 2

/-- Whether a listener at this level hears notices of the other. -/
def hears (listener level : Level) : Bool :=
  level.rank ≤ listener.rank

end Level

inductive Notice where
  | schemaParsed (nodes : Nat)
  | skippedSchemaChild (tag : String)
  | skippedParticle (tag : String)
  | truncatedFacet (facet value : String) (truncated : Int)
  | ignoredFacet (facet value : String)
  | duplicateDeclaration (kind name : String)
  | unresolvedType (name : String)
  | unresolvedReference (kind name : String)
  | referencesResolved (unresolved : Nat)
  | schemaUnresolved (unresolved : Nat)
  | derivation (node builder : String)
  | unresolvedElement (name : String)
  | unresolvedDeclarationType (name : Option String) (typeName : String)
  | unresolvedBase (base : String)
  | unresolvedItem (typeName : String)
  | circularGroup (node : String)
  | unresolvedGroup (name : String)
  | unresolvedAttributeGroup (name : String)
  | renderingBuilders (builders : Nat)
  | unnamedField (className builder : String)
  | omittedRule (className rule : String)
  | graphBuilt (objects : Nat)
  | instanceRendered (className tag : String)
  deriving DecidableEq, Repr

namespace Notice

def level : Notice → Level
  | schemaParsed _ | skippedSchemaChild _ | skippedParticle _ | referencesResolved _
  | renderingBuilders _ | unnamedField .. | graphBuilt _ => .debug
  | derivation .. | instanceRendered .. => .trace
  | _ => .warn

def message : Notice → String
  | schemaParsed _ => "schema parsed"
  | skippedSchemaChild _ => "skipping unsupported schema child"
  | skippedParticle _ => "skipping unsupported particle"
  | truncatedFacet .. => "truncating decimal facet value"
  | ignoredFacet .. => "ignoring non-numeric facet value"
  | duplicateDeclaration .. => "duplicate declaration, keeping the first"
  | unresolvedType _ => "type reference matches no declaration"
  | unresolvedReference .. => "reference matches no declaration"
  | referencesResolved _ => "references resolved"
  | schemaUnresolved _ => "schema has unresolved references"
  | derivation .. => "deriving class builder"
  | unresolvedElement _ => "element reference is unresolved"
  | unresolvedDeclarationType .. => "declaration type is unresolved"
  | unresolvedBase _ => "base type is unresolved"
  | unresolvedItem _ => "item type is unresolved"
  | circularGroup _ => "group refers to itself, ignoring the inner use"
  | unresolvedGroup _ => "group reference is unresolved"
  | unresolvedAttributeGroup _ => "attribute group reference is unresolved"
  | renderingBuilders _ => "rendering class builders"
  | unnamedField .. => "field without a name skipped"
  | omittedRule .. => "unsupported validation omitted"
  | graphBuilt _ => "object graph built"
  | instanceRendered .. => "instance rendered"

def optionText : Option String → String
  | some text => "Some(" ++ Text.quoted text ++ ")"
  | none => "None"

def details : Notice → List (String × String)
  | schemaParsed nodes => [("nodes", toString nodes)]
  | skippedSchemaChild tag => [("tag", tag)]
  | skippedParticle tag => [("tag", tag)]
  | truncatedFacet facet value truncated =>
    [("facet", facet), ("value", value), ("truncated", toString truncated)]
  | ignoredFacet facet value => [("facet", facet), ("value", value)]
  | duplicateDeclaration kind name => [("kind", kind), ("name", name)]
  | unresolvedType name => [("name", name)]
  | unresolvedReference kind name => [("kind", kind), ("name", name)]
  | referencesResolved unresolved => [("unresolved", toString unresolved)]
  | schemaUnresolved unresolved => [("unresolved", toString unresolved)]
  | derivation node builder => [("node", node), ("builder", builder)]
  | unresolvedElement name => [("name", name)]
  | unresolvedDeclarationType name typeName =>
    [("name", optionText name), ("type_name", typeName)]
  | unresolvedBase base => [("base", base)]
  | unresolvedItem typeName => [("type_name", typeName)]
  | circularGroup node => [("node", node)]
  | unresolvedGroup name => [("name", name)]
  | unresolvedAttributeGroup name => [("name", name)]
  | renderingBuilders builders => [("builders", toString builders)]
  | unnamedField className builder => [("class", className), ("builder", builder)]
  | omittedRule className rule => [("class", className), ("kind", rule)]
  | graphBuilt objects => [("objects", toString objects)]
  | instanceRendered className tag => [("class", className), ("tag", tag)]

end Notice
end SchemaClasses
