import SchemaClasses.Document.Tree
import SchemaClasses.Graph.Basic
import SchemaClasses.Schema.Basic

/-! Object graphs of documents: one object for each element, with its attributes, and with its text
unless it has child elements. -/

namespace SchemaClasses.Graph

mutual

def addTree (graph : Graph) (parent : Option ObjectId) : Tree → Graph
  | .node _ element children =>
    let content := if children.isEmpty then element.text else none
    let (id, graph) := graph.add parent element.name content element.attributes
    addTrees graph id children

def addTrees (graph : Graph) (parent : ObjectId) : List Tree → Graph
  | [] => graph
  | tree :: rest => addTrees (addTree graph (some parent) tree) parent rest

end

def ofTree (tree : Tree) : Graph :=
  ({} : Graph).addTree none tree

/-- The first tag that a schema does not declare, parents before children. -/
def undeclared? (schema : Schema) (tree : Tree) : Option String :=
  ((tree.listFrom 0).map fun (_, below) => below.name).find? fun tag =>
    (schema.declaration? tag).isNone

/-- The graph of an instance document, all of whose elements have to be declared. -/
def ofDocument (schema : Schema) (document : Document) : Except Error (Graph × List Notice) :=
  match document.tree? with
  | none => .error .noRootElement
  | some tree =>
    match undeclared? schema tree with
    | some tag => .error (.undeclaredElement tag)
    | none =>
      let graph := ofTree tree
      .ok (graph, [.graphBuilt graph.size])

end SchemaClasses.Graph
