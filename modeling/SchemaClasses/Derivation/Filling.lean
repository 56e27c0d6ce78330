import SchemaClasses.Derivation.Expansion
import SchemaClasses.Name

/-! Filling: what a node contributes to its builder. A node that only wraps another one, such as a
content model or an unnamed type, lets the inner node fill the same builder. -/

namespace SchemaClasses.Derive
variable (nodes : Nodes) (recursion : Recursion)

def setClassName (builder : BuilderId) (name : Option String) : Derive Unit :=
  match name with
  | some name => edit (·.modify builder ({ · with className := some (Name.camel name) }))
  | none => return

def setBase (builder base : BuilderId) : Derive Unit :=
  edit (·.modify builder ({ · with base := some base }))

def setList (builder : BuilderId) (item : Option BuilderId) : Derive Unit :=
  edit (·.modify builder ({ · with target := some .list, item }))

/-- Makes a builder stand for the repetitions of an element. -/
def setRepeated (builder : BuilderId) (name : Option String) (item : BuilderId) : Derive Unit :=
  edit (·.modify builder ({ · with target := some .list, fieldTag := name, item := some item }))

/-- Lets nodes inside of another fill its builder. -/
def embed (builder : BuilderId) (ids : List NodeId) : Derive Unit :=
  ids.forM fun id => discard (recursion.builder id (some builder))

/-- Appends what a node stands for. -/
def append (builder : BuilderId) (id : NodeId) : Derive Unit := do
  let content ← recursion.expansion [] id
  edit (·.pushFields builder content.fields)
  edit (·.pushRules builder (content.choices.map .choice))

/-- Appends a content model: a group, a choice and a sequence. -/
def appendModel (builder : BuilderId) (node : Node) : Derive Unit :=
  ((node.child? .group).toList ++ (node.child? .choice).toList
    ++ (node.child? .sequence).toList).forM (append recursion builder)

def appendAttribute (builder : BuilderId) (id : NodeId) : Derive Unit := do
  let field ← recursion.builder id none
  edit (·.pushField builder field)

def appendAttributes (builder : BuilderId) (node : Node) : Derive Unit := do
  ((node.childrenOf .attr).filter fun id => !isProhibited nodes id).forM
    (appendAttribute recursion builder)
  (node.childrenOf .attrGroup).forM (append recursion builder)

def declare (builder : BuilderId) (name : Option String) (type : Option TypeRef) :
    Derive Unit := do
  edit (·.modify builder ({ · with className := name.map Name.camel, fieldTag := name }))
  match type with
  | some (.builtin type) => edit (·.modify builder ({ · with target := some (.builtin type) }))
  | some (.simple id) | some (.complex id) => setBase builder (← recursion.builder id none)
  | some (.named typeName) => report (.unresolvedDeclarationType name typeName)
  | none => return

/-- The type that a restriction or an extension starts from. -/
def setBaseType (builder : BuilderId) (base : Option TypeRef) : Derive Unit := do
  match base with
  | some (.builtin type) => edit (·.setBuiltinBase builder type)
  | some (.simple id) | some (.complex id) => setBase builder (← recursion.builder id none)
  | some (.named name) => report (.unresolvedBase name)
  | none => return

/-- The type of the items of a list: the type that it names, else the one inside it. -/
def itemOf (itemType : Option TypeRef) (embedded : Option NodeId) : Derive (Option BuilderId) := do
  match itemType, embedded with
  | some (.builtin type), _ => return some (← make (·.createBuiltin type))
  | some (.simple id), _ | some (.complex id), _ => return some (← recursion.builder id none)
  | some (.named name), _ =>
    report (.unresolvedItem name)
    return none
  | none, some id => return some (← recursion.builder id none)
  | none, none => return none

/-- The builder that an element declaration describes: its own, or that of one item of its own. -/
def itemBuilder (builder : BuilderId) (decl : ElementDecl) : Derive BuilderId := do
  if decl.occurs.isMultiple then
    let item ← make Builders.create
    setRepeated builder decl.name item
    return item
  else return builder

def fill (builder : BuilderId) (id : NodeId) : Derive Unit := do
  let node := nodes.get id
  match node.construct with
  | .element decl =>
    let item ← itemBuilder builder decl
    declare recursion item decl.name decl.type
    embed recursion item ((node.child? .complexType).toList ++ (node.child? .simpleType).toList)
  | .attr decl =>
    declare recursion builder decl.name decl.type
    embed recursion builder (node.child? .simpleType).toList
  | .complexType name _ _ =>
    setClassName builder name
    embed recursion builder
      ((node.child? .simpleContent).toList ++ (node.child? .complexContent).toList)
    appendModel recursion builder node
    (node.child? .all).toList.forM (append recursion builder)
    appendAttributes nodes recursion builder node
  | .simpleType name =>
    setClassName builder name
    embed recursion builder ((node.child? .restriction).toList ++ (node.child? .list).toList)
    if (node.child? .union).isSome then edit (·.setBuiltinBase builder .anySimpleType)
  | .simpleContent _ | .complexContent _ =>
    embed recursion builder
      ((node.child? .restriction).toList ++ (node.child? .extension).toList)
  | .restriction base facets =>
    setBaseType recursion builder base
    appendModel recursion builder node
    appendAttributes nodes recursion builder node
    (node.child? .simpleType).toList.forM (appendAttribute recursion builder)
    edit (·.pushRules builder facets.rules)
  | .extension base =>
    setBaseType recursion builder base
    appendModel recursion builder node
    appendAttributes nodes recursion builder node
  | .list itemType => setList builder (← itemOf recursion itemType (node.child? .simpleType))
  | .union _ => edit (·.setBuiltinBase builder .anySimpleType)
  | .schema _ | .group .. | .attrGroup .. | .sequence _ | .choice _ | .all _ =>
    append recursion builder id

/-- Gives a node the builder of the one that it refers to. -/
def share (id referenced : NodeId) : Derive BuilderId := do
  let builder ← recursion.builder referenced none
  remember id builder
  return builder

/-- The builder of an element that refers to another: for a single use that of the other element, for
repetitions a list of it. -/
def elementUse (id : NodeId) (target : Option BuilderId) (occurs : Occurs) (ref : NodeRef) :
    Derive BuilderId := do
  match ref with
  | .named name =>
    report (.unresolvedElement name)
    let builder ← makeUnless target
    edit (·.modify builder ({ · with fieldTag := some name }))
    remember id builder
    return builder
  | .resolved referenced =>
    if occurs.isMultiple then
      let builder ← makeUnless target
      remember id builder
      let item ← recursion.builder referenced none
      setRepeated builder (nodes.get referenced).name? item
      return builder
    else share recursion id referenced

/-- Makes the builder of a node, which is known before anything the node leads to is derived. -/
def describe (id : NodeId) (target : Option BuilderId) : Derive BuilderId := do
  let builder ← makeUnless target
  remember id builder
  report (.derivation (nodes.get id).info builder.text)
  fill nodes recursion builder id
  return builder

def derive (id : NodeId) (target : Option BuilderId) : Derive BuilderId := do
  if let some builder ← builder? id then
    return builder
  match (nodes.get id).construct with
  | .element { ref := some ref, occurs, .. } => elementUse nodes recursion id target occurs ref
  | .attr { ref := some (.resolved referenced), .. } => share recursion id referenced
  | _ => describe nodes recursion id target

end SchemaClasses.Derive
