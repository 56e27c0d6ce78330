import SchemaClasses.Schema.Reading
import SchemaClasses.Schema.Resolution

/-! Schemas: the resolved nodes of one document and the element declarations that instance documents
are read by. -/

namespace SchemaClasses

structure Schema where
  nodes : Nodes
  root : NodeId
  /-- Element declarations by local name. Those directly in the schema come first, and of several
  for one name the first counts. -/
  declarations : Entries NodeId
  deriving Inhabited

/-- The outcome of reading a schema. What was reported and linked on the way is there even if it
failed. -/
structure Loading where
  result : Except Error Schema
  links : Reading.Links
  notices : List Notice

namespace Schema

def node (schema : Schema) (id : NodeId) : Node :=
  schema.nodes.get id

def declare (nodes : Nodes) (declarations : Entries NodeId) (id : NodeId) : Entries NodeId :=
  match (nodes.get id).name? with
  | some name => declarations.insertNew (Name.localPart name) id
  | none => declarations

def declarationsOf (nodes : Nodes) (root : NodeId) : Entries NodeId :=
  let all := (List.range nodes.size).filter fun id => nodes.kindOf id = .element
  (((nodes.get root).childrenOf .element) ++ all).foldl (declare nodes) []

def ofNodes (nodes : Nodes) (root : NodeId) : Schema × List Notice :=
  let resolution := nodes.resolve
  ({ nodes := resolution.nodes
     root
     declarations := declarationsOf resolution.nodes root },
    resolution.notices
      ++ if resolution.unresolved = 0 then [] else [.schemaUnresolved resolution.unresolved])

/-- Reads a schema from a document whose elements may be linked to nodes already. -/
def load (limits : Limits) (document : Document) (links : Reading.Links) : Loading :=
  let (result, state) := (Reading.document limits document).run { links }
  match result with
  | .error error => ⟨.error error, state.links, state.notices⟩
  | .ok root =>
    let (schema, notices) := ofNodes state.nodes root
    ⟨.ok schema, state.links, state.notices ++ notices⟩

def ofDocument (limits : Limits) (document : Document) : Loading :=
  load limits document (Array.replicate document.size none)

def ofBytes (limits : Limits) (bytes : List UInt8) : Loading :=
  match Document.read limits bytes with
  | .ok document => ofDocument limits document
  | .error error => ⟨.error error, #[], []⟩

def targetNamespace? (schema : Schema) : Option String :=
  match (schema.node schema.root).construct with
  | .schema targetNamespace => targetNamespace
  | _ => none

def find? (schema : Schema) (kind : Kind) (name : String) : Option NodeId :=
  schema.nodes.findIdx? fun node =>
    node.kind = kind && node.name?.map Name.localPart == some (Name.localPart name)

/-- The declaration that elements of a tag are instances of. -/
def declaration? (schema : Schema) (tag : String) : Option NodeId :=
  schema.declarations.get? (Name.localPart tag)

/-- The class of the elements of a tag: that of the declared type, if it is built in or has a name,
else one named after the element. -/
def className (schema : Schema) (tag : String) : Except Error String :=
  match schema.declaration? tag with
  | none => .error (.undeclaredElement tag)
  | some id =>
    match (schema.node id).construct with
    | .element decl =>
      match decl.type with
      | some (.builtin type) => .ok type.label
      | some (.simple type) | some (.complex type) =>
        .ok (Name.camel ((schema.node type).name?.getD tag))
      | some (.named _) | none => .ok (Name.camel (decl.name.getD tag))
    | _ => .error (.notElement id.text)

def unresolvedTypes (node : Node) : List String :=
  node.construct.typeRefs.filterMap fun
    | .named name => some name
    | _ => none

def unresolvedRef? (node : Node) : Option String :=
  match node.construct.nodeRef? with
  | some (.named name) => some name
  | _ => none

/-- The names that mean nothing: those of types, then those of other declarations. -/
def unresolved (schema : Schema) : List String :=
  schema.nodes.toList.flatMap unresolvedTypes ++ schema.nodes.toList.filterMap unresolvedRef?

end Schema
end SchemaClasses
