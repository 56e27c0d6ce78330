import SchemaClasses.Builtin
import SchemaClasses.Error
import SchemaClasses.Rule

/-! Nodes of a schema. Every grammar construct is one node; nodes are known by their number, and a
node lists its children with their kinds. References are names until they are resolved. -/

namespace SchemaClasses

inductive Kind where
  | schema
  | element
  | complexType
  | simpleType
  | attr
  | attrGroup
  | group
  | sequence
  | choice
  | all
  | simpleContent
  | complexContent
  | restriction
  | extension
  | list
  | union
  deriving DecidableEq, Repr, Inhabited

namespace Kind

def every : List Kind := [
  schema, element, complexType, simpleType, attr, attrGroup, group, sequence, choice, all,
  simpleContent, complexContent, restriction, extension, list, union]

/-- The tag that opens the construct. -/
def tag : Kind → String
  | schema => "schema"
  | element => "element"
  | complexType => "complexType"
  | simpleType => "simpleType"
  | attr => "attribute"
  | attrGroup => "attributeGroup"
  | group => "group"
  | sequence => "sequence"
  | choice => "choice"
  | all => "all"
  | simpleContent => "simpleContent"
  | complexContent => "complexContent"
  | restriction => "restriction"
  | extension => "extension"
  | list => "list"
  | union => "union"

def ofTag? (tag : String) : Option Kind :=
  every.find? (·.tag == tag)

end Kind

abbrev NodeId := Nat

def NodeId.text (id : NodeId) : String :=
  "#" ++ toString id

/-- A reference to a type. A name that resolution leaves is one that matches no type. -/
inductive TypeRef where
  | named (name : String)
  | builtin (type : Builtin)
  | simple (id : NodeId)
  | complex (id : NodeId)
  deriving DecidableEq, Repr

namespace TypeRef

def isResolved : TypeRef → Bool
  | named _ => false
  | _ => true

def builtin? : TypeRef → Option Builtin
  | builtin type => some type
  | _ => none

/-- The node it leads to; a built-in type has none. -/
def node : TypeRef → Except Error (Option NodeId)
  | named name => .error (.unresolvedReference name)
  | builtin _ => .ok none
  | simple id | complex id => .ok (some id)

def text : TypeRef → String
  | named name => name
  | builtin type => type.label
  | simple id => "simpleType " ++ id.text
  | complex id => "complexType " ++ id.text

end TypeRef

/-- A reference to a declaration of the same kind. -/
inductive NodeRef where
  | named (name : String)
  | resolved (id : NodeId)
  deriving DecidableEq, Repr

def NodeRef.node : NodeRef → Except Error NodeId
  | named name => .error (.unresolvedReference name)
  | resolved id => .ok id

/-- How often a particle may occur; without a maximum, any number of times. -/
structure Occurs where
  min : Nat := 1
  max : Option Nat := some 1
  deriving DecidableEq, Repr, Inhabited

def Occurs.isMultiple (occurs : Occurs) : Bool :=
  match occurs.max with
  | none => true
  | some max => 1 < max

inductive Usage where
  | optional
  | required
  | prohibited
  deriving DecidableEq, Repr

structure ElementDecl where
  name : Option String := none
  type : Option TypeRef := none
  ref : Option NodeRef := none
  occurs : Occurs := {}
  nillable : Bool := false
  isAbstract : Bool := false
  default : Option String := none
  fixed : Option String := none
  deriving DecidableEq, Repr

structure AttributeDecl where
  name : Option String := none
  type : Option TypeRef := none
  ref : Option NodeRef := none
  usage : Usage := .optional
  default : Option String := none
  fixed : Option String := none
  deriving DecidableEq, Repr

/-- What a construct states itself, apart from its children. -/
inductive Construct where
  | schema (targetNamespace : Option String)
  | element (decl : ElementDecl)
  | complexType (name : Option String) (mixed isAbstract : Bool)
  | simpleType (name : Option String)
  | attr (decl : AttributeDecl)
  | attrGroup (name : Option String) (ref : Option NodeRef)
  | group (name : Option String) (ref : Option NodeRef) (occurs : Occurs)
  | sequence (occurs : Occurs)
  | choice (occurs : Occurs)
  | all (occurs : Occurs)
  | simpleContent (mixed : Bool)
  | complexContent (mixed : Bool)
  | restriction (base : Option TypeRef) (facets : Facets)
  | extension (base : Option TypeRef)
  | list (itemType : Option TypeRef)
  | union (memberTypes : List TypeRef)
  deriving DecidableEq, Repr, Inhabited

namespace Construct

def kind : Construct → Kind
  | schema _ => .schema
  | element _ => .element
  | complexType .. => .complexType
  | simpleType _ => .simpleType
  | attr _ => .attr
  | attrGroup .. => .attrGroup
  | group .. => .group
  | sequence _ => .sequence
  | choice _ => .choice
  | all _ => .all
  | simpleContent _ => .simpleContent
  | complexContent _ => .complexContent
  | restriction .. => .restriction
  | extension _ => .extension
  | list _ => .list
  | union _ => .union

/-- The construct of a kind that states nothing. -/
def bare : Kind → Construct
  | .schema => schema none
  | .element => element {}
  | .complexType => complexType none false false
  | .simpleType => simpleType none
  | .attr => attr {}
  | .attrGroup => attrGroup none none
  | .group => group none none {}
  | .sequence => sequence {}
  | .choice => choice {}
  | .all => all {}
  | .simpleContent => simpleContent false
  | .complexContent => complexContent false
  | .restriction => restriction none {}
  | .extension => extension none
  | .list => list none
  | .union => union []

def name? : Construct → Option String
  | element decl => decl.name
  | complexType name _ _ => name
  | simpleType name => name
  | attr decl => decl.name
  | attrGroup name _ => name
  | group name _ _ => name
  | _ => none

def typeRefs : Construct → List TypeRef
  | element decl => decl.type.toList
  | attr decl => decl.type.toList
  | restriction base _ => base.toList
  | extension base => base.toList
  | list itemType => itemType.toList
  | union memberTypes => memberTypes
  | _ => []

def nodeRef? : Construct → Option NodeRef
  | element decl => decl.ref
  | attr decl => decl.ref
  | attrGroup _ ref => ref
  | group _ ref _ => ref
  | _ => none

/-- The reference that a one-line description names. -/
def mainTypeRef? : Construct → Option TypeRef
  | restriction base _ => base
  | extension base => base
  | element decl => decl.type
  | attr decl => decl.type
  | _ => none

end Construct

/-- A child together with its kind. -/
structure Child where
  kind : Kind
  id : NodeId
  deriving DecidableEq, Repr

structure Node where
  /-- The `id` attribute. -/
  label : Option String := none
  parent : Option NodeId := none
  construct : Construct := default
  children : List Child := []
  deriving DecidableEq, Repr, Inhabited

namespace Node

def kind (node : Node) : Kind :=
  node.construct.kind

def name? (node : Node) : Option String :=
  node.construct.name?

def childrenOf (node : Node) (kind : Kind) : List NodeId :=
  (node.children.filter (·.kind = kind)).map Child.id

def child? (node : Node) (kind : Kind) : Option NodeId :=
  (node.childrenOf kind).head?

def info (node : Node) : String :=
  node.kind.tag
    ++ ((node.label.map (" id: " ++ ·)).getD "")
    ++ ((node.name?.map (" name: " ++ ·)).getD "")
    ++ ((node.construct.mainTypeRef?.map (" type: " ++ ·.text)).getD "")

end Node

abbrev Nodes := Array Node

namespace Nodes

def get (nodes : Nodes) (id : NodeId) : Node :=
  nodes.getD id default

def kindOf (nodes : Nodes) (id : NodeId) : Kind :=
  (nodes.get id).kind

end Nodes
end SchemaClasses
