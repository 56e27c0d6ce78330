import SchemaClasses.Notice
import SchemaClasses.Schema.Node

/-! Resolution: every name in a schema is linked to what it means. Names are compared by their local
part. A type name means a built-in type before a simple type before a complex type; any other
reference means a declaration of its own kind. Of several declarations of one name the first counts,
and a name that means nothing stays. -/

namespace SchemaClasses

/-- Declarations that can be referred to, by kind and local name. -/
abbrev Index := List ((Kind × String) × NodeId)

namespace Index

def find? (index : Index) (kind : Kind) (name : String) : Option NodeId :=
  index.lookup (kind, Name.localPart name)

/-- Elements and attributes can be referred to only if they stand directly in the schema. -/
def isReferable (nodes : Nodes) (node : Node) : Bool :=
  match node.kind with
  | .element | .attr => (node.parent.map nodes.kindOf) == some .schema
  | _ => true

def add (nodes : Nodes) (index : Index) (node : Node) (id : NodeId) : Index × List Notice :=
  match node.name? with
  | none => (index, [])
  | some name =>
    if !isReferable nodes node then (index, [])
    else if (index.find? node.kind name).isSome then
      (index, [.duplicateDeclaration node.kind.tag name])
    else (index ++ [((node.kind, Name.localPart name), id)], [])

def ofNodes (nodes : Nodes) : Index × List Notice :=
  nodes.toList.zipIdx.foldl (fun (index, notices) (node, id) =>
    let (index, more) := index.add nodes node id
    (index, notices ++ more)) ([], [])

end Index

def Index.type (index : Index) (name : String) : TypeRef :=
  match Builtin.ofName? name with
  | some type => .builtin type
  | none =>
    match index.find? .simpleType name with
    | some id => .simple id
    | none =>
      match index.find? .complexType name with
      | some id => .complex id
      | none => .named name

def TypeRef.resolve (index : Index) : TypeRef → TypeRef × List Notice
  | named name =>
    let type := index.type name
    (type, if type.isResolved then [] else [.unresolvedType name])
  | type => (type, [])

def NodeRef.resolve (index : Index) (kind : Kind) : NodeRef → NodeRef × List Notice
  | named name =>
    match index.find? kind name with
    | some id => (resolved id, [])
    | none => (named name, [.unresolvedReference kind.tag name])
  | ref => (ref, [])

def resolveOption (resolve : α → α × List Notice) : Option α → Option α × List Notice
  | some ref =>
    let (ref, notices) := resolve ref
    (some ref, notices)
  | none => (none, [])

def Construct.resolve (index : Index) (construct : Construct) : Construct × List Notice :=
  let type := resolveOption (TypeRef.resolve index)
  let node := resolveOption (NodeRef.resolve index construct.kind)
  match construct with
  | element decl =>
    let (type, typeNotices) := type decl.type
    let (ref, refNotices) := node decl.ref
    (element { decl with type, ref }, typeNotices ++ refNotices)
  | attr decl =>
    let (type, typeNotices) := type decl.type
    let (ref, refNotices) := node decl.ref
    (attr { decl with type, ref }, typeNotices ++ refNotices)
  | attrGroup name ref =>
    let (ref, notices) := node ref
    (attrGroup name ref, notices)
  | group name ref occurs =>
    let (ref, notices) := node ref
    (group name ref occurs, notices)
  | restriction base facets =>
    let (base, notices) := type base
    (restriction base facets, notices)
  | extension base =>
    let (base, notices) := type base
    (extension base, notices)
  | list itemType =>
    let (itemType, notices) := type itemType
    (list itemType, notices)
  | union memberTypes =>
    let members := memberTypes.map (TypeRef.resolve index)
    (union (members.map Prod.fst), members.flatMap Prod.snd)
  | other => (other, [])

def Node.resolve (index : Index) (node : Node) : Node × List Notice :=
  let (construct, notices) := node.construct.resolve index
  ({ node with construct }, notices)

/-- Nodes with their references resolved, what there is to report, and how many names stayed. -/
structure Resolution where
  nodes : Nodes
  notices : List Notice
  unresolved : Nat

def Nodes.resolve (nodes : Nodes) : Resolution :=
  let (index, duplicates) := Index.ofNodes nodes
  let resolved := nodes.map (Node.resolve index)
  let unresolved := resolved.toList.flatMap Prod.snd
  { nodes := resolved.map Prod.fst
    notices := duplicates ++ unresolved ++ [.referencesResolved unresolved.length]
    unresolved := unresolved.length }

end SchemaClasses
