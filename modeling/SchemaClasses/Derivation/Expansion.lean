import SchemaClasses.Derivation.Basic

/-! Expansion: groups of particles and groups of attributes stand for the fields of their members.
A group inside itself adds nothing. -/

namespace SchemaClasses

/-- The fields that a node stands for, and the names of the options of each choice among them that
is made exactly once. -/
structure Expansion where
  fields : List BuilderId := []
  choices : List (List String) := []
  deriving DecidableEq, Repr

namespace Expansion

def join (parts : List Expansion) : Expansion where
  fields := parts.flatMap Expansion.fields
  choices := parts.flatMap Expansion.choices

end Expansion

/-- How the nodes that a node leads to are derived. A builder is made, or a given one filled in its
place; an expansion is given the groups that it stands inside. -/
structure Recursion where
  builder : NodeId → Option BuilderId → Derive BuilderId
  expansion : List NodeId → NodeId → Derive Expansion

namespace Derive
variable (nodes : Nodes) (recursion : Recursion)

def isProhibited (id : NodeId) : Bool :=
  match (nodes.get id).construct with
  | .attr decl => decl.usage = .prohibited
  | _ => false

def fields (ids : List NodeId) : Derive (List BuilderId) :=
  ids.mapM fun id => recursion.builder id none

def attributeFields (ids : List NodeId) : Derive (List BuilderId) :=
  fields recursion (ids.filter fun id => !isProhibited nodes id)

def expandAll (path ids : List NodeId) : Derive Expansion :=
  return Expansion.join (← ids.mapM (recursion.expansion path))

/-- An element is a field; any other particle stands for its members. -/
def particle (path : List NodeId) (id : NodeId) : Derive Expansion :=
  match nodes.kindOf id with
  | .element => return { fields := [← recursion.builder id none] }
  | _ => recursion.expansion path id

def particles (path ids : List NodeId) : Derive Expansion :=
  return Expansion.join (← ids.mapM (particle nodes recursion path))

/-- The names of those fields that have one. -/
def options (fields : List BuilderId) : Derive (List String) :=
  return fields.filterMap (← get).builders.fieldName?

def members (path : List NodeId) (node : Node) : Derive Expansion :=
  particles nodes recursion path (node.children.map Child.id)

/-- The members of a group, or of the group that it refers to. -/
def referred (path : List NodeId) (ref : NodeRef) (unresolved : String → Notice) :
    Derive Expansion :=
  match ref with
  | .resolved id => recursion.expansion path id
  | .named name => do
    report (unresolved name)
    return {}

/-- What a node stands for inside of the groups in `path`, of which it is the first. -/
def expand (path : List NodeId) (id : NodeId) : Derive Expansion := do
  let node := nodes.get id
  match node.construct with
  | .schema _ =>
    return { fields := ← fields recursion (node.childrenOf .element
      ++ node.childrenOf .complexType ++ node.childrenOf .simpleType) }
  | .group _ (some ref) _ => referred recursion path ref .unresolvedGroup
  | .group _ none _ =>
    expandAll recursion path ((node.child? .choice).toList
      ++ (node.child? .sequence).toList ++ (node.child? .all).toList)
  | .attrGroup _ (some ref) => referred recursion path ref .unresolvedAttributeGroup
  | .attrGroup _ none =>
    let own ← attributeFields nodes recursion (node.childrenOf .attr)
    let nested ← expandAll recursion path (node.childrenOf .attrGroup)
    return Expansion.join [{ fields := own }, nested]
  | .sequence _ | .all _ => members nodes recursion path node
  | .choice occurs =>
    let content ← members nodes recursion path node
    if occurs = {} then
      return { content with choices := content.choices ++ [← options content.fields] }
    else return content
  | _ => return { fields := [← recursion.builder id none] }

def expandOnce (path : List NodeId) (id : NodeId) : Derive Expansion :=
  if id ∈ path then do
    report (.circularGroup (nodes.get id).info)
    return {}
  else expand nodes recursion (id :: path) id

end Derive
end SchemaClasses
