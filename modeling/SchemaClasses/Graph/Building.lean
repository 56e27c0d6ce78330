import SchemaClasses.Graph.Basic
import SchemaClasses.Schema.Basic

/-! The building of instances from an object graph, children before parents, so that an object finds
the instances of its children ready. -/

namespace SchemaClasses.Graph

def addChild (graph : Graph) (made : Instance) (child : ObjectId) : Except Error Instance :=
  match graph.get? child with
  | none => .ok made
  | some object =>
    match object.rendered with
    | some value => .ok (made.pushField (Name.field object.tagName) value)
    | none => .error (.childNotRendered made.tagName object.tagName)

def renderObject (graph : Graph) (schema : Schema) (object : Object) : Except Error Instance := do
  let className ← schema.className object.tagName
  object.children.toList.foldlM graph.addChild {
    className
    tagName := object.tagName
    content := object.content
    attributes := object.attributes }

def renderNotice (made : Instance) : Notice :=
  .instanceRendered made.className made.tagName

/-- The outcome of building. What was built before a failure stays in the graph. -/
structure Building where
  graph : Graph
  failure : Option Error := none
  notices : List Notice := []

/-- Builds the instances of the objects, one after the other, up to the first failure. -/
def buildEach (schema : Schema) (graph : Graph) : List ObjectId → Building
  | [] => { graph }
  | id :: rest =>
    match graph.get? id with
    | none => buildEach schema graph rest
    | some object =>
      match graph.renderObject schema object with
      | .error error => { graph, failure := some error }
      | .ok made =>
        let later := buildEach schema (graph.setRendered id (some made)) rest
        { later with notices := renderNotice made :: later.notices }

def build (graph : Graph) (schema : Schema) : Building :=
  graph.buildEach schema graph.postOrder

def Building.result (building : Building) : Except Error (Option Instance) :=
  match building.failure with
  | some error => .error error
  | none => .ok ((building.graph.root? >>= building.graph.get?) >>= Object.rendered)

end SchemaClasses.Graph
