import SchemaClasses.Decimal
import SchemaClasses.Document.Tree
import SchemaClasses.Notice
import SchemaClasses.Schema.Node

/-! Reading the nodes of a schema from the elements of its document. A node takes its number before
its children take theirs. Which children a construct may have, and in which order they are read, is
laid down for each kind; other elements are passed over. -/

namespace SchemaClasses.Reading

/-- The node made from each element, by the number of the element. -/
abbrev Links := Array (Option NodeId)

structure State where
  nodes : Nodes := #[]
  links : Links
  notices : List Notice := []

/-- Steps that may fail. What was read and reported before a failure stays. -/
abbrev M := ExceptT Error (StateM State)

def report (notices : List Notice) : M Unit :=
  modify fun state => { state with notices := state.notices ++ notices }

section Attributes
variable (tree : Tree)

def boolean (name : String) : Except Error Bool :=
  match (tree.attribute? name).map Text.trim with
  | none => .ok false
  | some "true" | some "1" => .ok true
  | some "false" | some "0" => .ok false
  | some value => .error (.invalidBoolean value name tree.name)

def count? (text : String) : Option Nat :=
  Digits.unsigned? (Nat.pow 2 64) (Text.trimChars text.toList)

def minOccurs : Except Error Nat :=
  match tree.attribute? "minOccurs" with
  | none => .ok 1
  | some value =>
    match count? value with
    | some n => .ok n
    | none => .error (.invalidMinOccurs value tree.name)

def maxOccurs : Except Error (Option Nat) :=
  match tree.attribute? "maxOccurs" with
  | none => .ok (some 1)
  | some value =>
    if Text.trim value = "unbounded" then .ok none
    else
      match count? value with
      | some n => .ok (some n)
      | none => .error (.invalidMaxOccurs value tree.name)

def occurs : Except Error Occurs := do
  let min ← minOccurs tree
  let max ← maxOccurs tree
  return { min, max }

def usage : Except Error Usage :=
  match (tree.attribute? "use").map Text.trim with
  | none | some "optional" => .ok .optional
  | some "required" => .ok .required
  | some "prohibited" => .ok .prohibited
  | some value => .error (.invalidUse value tree.name)

def typeRef? (name : String) : Option TypeRef :=
  (tree.attribute? name).map .named

def nodeRef? : Option NodeRef :=
  (tree.attribute? "ref").map .named

/-- What the attributes of an element say about the construct it is. -/
def stated : Kind → Except Error Construct
  | .schema => return .schema (tree.attribute? "targetNamespace")
  | .element => do
    let occurs ← occurs tree
    let nillable ← boolean tree "nillable"
    let isAbstract ← boolean tree "abstract"
    return .element {
      name := tree.attribute? "name"
      type := typeRef? tree "type"
      ref := nodeRef? tree
      occurs, nillable, isAbstract
      default := tree.attribute? "default"
      fixed := tree.attribute? "fixed" }
  | .complexType => do
    let mixed ← boolean tree "mixed"
    let isAbstract ← boolean tree "abstract"
    return .complexType (tree.attribute? "name") mixed isAbstract
  | .simpleType => return .simpleType (tree.attribute? "name")
  | .attr => do
    let usage ← usage tree
    return .attr {
      name := tree.attribute? "name"
      type := typeRef? tree "type"
      ref := nodeRef? tree
      usage
      default := tree.attribute? "default"
      fixed := tree.attribute? "fixed" }
  | .attrGroup => return .attrGroup (tree.attribute? "name") (nodeRef? tree)
  | .group => return .group (tree.attribute? "name") (nodeRef? tree) (← occurs tree)
  | .sequence => return .sequence (← occurs tree)
  | .choice => return .choice (← occurs tree)
  | .all => return .all (← occurs tree)
  | .simpleContent => return .simpleContent (← boolean tree "mixed")
  | .complexContent => return .complexContent (← boolean tree "mixed")
  | .restriction => return .restriction (typeRef? tree "base") {}
  | .extension => return .extension (typeRef? tree "base")
  | .list => return .list (typeRef? tree "itemType")
  | .union =>
    return .union (((tree.attribute? "memberTypes").map fun names =>
      (Text.words names).map .named).getD [])

/-- The value of a numeric facet. An empty one is absent, a fraction loses its decimals, and what is
no number is dropped. -/
def numericFacet (facet : NumericFacet) : Option Int × List Notice :=
  match (tree.childText? facet.tag).map Text.trim with
  | none | some "" => (none, [])
  | some value =>
    match Digits.signed? value.toList with
    | some n => (some n, [])
    | none =>
      match Decimal.read? value.toList >>= fun number => Digits.int64 number.truncate with
      | some n => (some n, [.truncatedFacet facet.tag value n])
      | none => (none, [.ignoredFacet facet.tag value])

/-- The value of a textual facet, unless it is blank. -/
def textFacet (tag : String) : Option String :=
  (tree.childText? tag).filter (!Text.isBlankText ·)

def facets : Facets × List Notice :=
  let read := NumericFacet.all.map fun facet => (facet, numericFacet tree facet)
  let enumerations := tree.childTexts "enumeration"
  ({ numbers := read.filterMap fun (facet, value, _) => value.map (facet, ·)
     enumerations := if enumerations.isEmpty then none else some enumerations
     whitespace := textFacet tree "whiteSpace" <|> textFacet tree "whitespace"
     pattern := textFacet tree "pattern" },
    read.flatMap fun (_, _, notices) => notices)

/-- Adds the facets to a restriction, which only one of complex content does not have. -/
def withFacets (parent : Option Kind) : Construct → Construct × List Notice
  | .restriction base plain =>
    if parent = some .complexContent then (.restriction base plain, [])
    else
      let (facets, notices) := facets tree
      (.restriction base facets, notices)
  | construct => (construct, [])

end Attributes

/-- What is done with the elements inside a construct, one after the other. -/
inductive Step where
  | read (kind : Kind) (tree : Tree)
  | skip (notice : Notice)

/-- A place for children of one kind: for the first such element, or for all of them. -/
inductive Slot where
  | first (kind : Kind)
  | every (kind : Kind)

def Slot.steps (tree : Tree) : Slot → List Step
  | first kind => (tree.child? kind.tag).toList.map (Step.read kind)
  | every kind => (tree.childrenNamed kind.tag).map (Step.read kind)

def modelSlots : List Slot :=
  [.first .group, .first .choice, .first .sequence]

def attributeSlots : List Slot :=
  [.every .attr, .every .attrGroup]

/-- The places for children of a construct, in the order they are read. Those of a restriction
depend on what it stands in. -/
def slots (parent : Option Kind) : Kind → List Slot
  | .element => [.first .simpleType, .first .complexType]
  | .complexType =>
    [.first .simpleContent, .first .complexContent] ++ modelSlots ++ [.first .all] ++ attributeSlots
  | .simpleType => [.first .restriction, .first .list, .first .union]
  | .attr => [.first .simpleType]
  | .attrGroup => attributeSlots
  | .group => [.first .choice, .first .sequence, .first .all]
  | .simpleContent | .complexContent => [.first .restriction, .first .extension]
  | .restriction =>
    if parent = some .complexContent then modelSlots ++ attributeSlots
    else if parent = some .simpleContent then attributeSlots ++ [.first .simpleType]
    else [.first .simpleType]
  | .extension => modelSlots ++ attributeSlots
  | .list => [.first .simpleType]
  | .union => [.every .simpleType]
  | _ => []

/-- The constructs that a schema declares, in the order it lists them. -/
def topLevel : List Kind :=
  [.element, .complexType, .simpleType, .attr, .attrGroup, .group]

def particles : List Kind :=
  [.element, .group, .choice, .sequence]

/-- Reads an element of one of the kinds and reports any other but an annotation. -/
def stepAmong (kinds : List Kind) (other : String → Notice) (tree : Tree) : Option Step :=
  match kinds.find? (·.tag == tree.name) with
  | some kind => some (.read kind tree)
  | none => if tree.name = "annotation" then none else some (.skip (other tree.name))

def steps (parent : Option Kind) (kind : Kind) (tree : Tree) : List Step :=
  match kind with
  | .schema => tree.children.filterMap (stepAmong topLevel .skippedSchemaChild)
  | .sequence | .choice | .all => tree.children.filterMap (stepAmong particles .skippedParticle)
  | _ => (slots parent kind).flatMap (Slot.steps tree)

theorem mem_children_of_mem_slot {slot : Slot} {tree child : Tree} {kind : Kind}
    (member : Step.read kind child ∈ slot.steps tree) : child ∈ tree.children := by
  cases slot with
  | first kind =>
    simp only [Slot.steps, List.mem_map, Option.mem_toList] at member
    obtain ⟨found, located, same⟩ := member
    cases same
    exact List.mem_of_find?_eq_some located
  | every kind =>
    simp only [Slot.steps, List.mem_map] at member
    obtain ⟨found, located, same⟩ := member
    cases same
    exact (List.mem_filter.mp located).1

theorem mem_children_of_stepAmong {kinds : List Kind} {other : String → Notice}
    {tree child : Tree} {kind : Kind}
    (member : Step.read kind child ∈ tree.children.filterMap (stepAmong kinds other)) :
    child ∈ tree.children := by
  obtain ⟨found, inside, same⟩ := List.mem_filterMap.mp member
  unfold stepAmong at same
  split at same
  · cases same; exact inside
  · split at same <;> simp at same

theorem mem_children_of_mem_steps {parent : Option Kind} {kind child' : Kind} {tree child : Tree}
    (member : Step.read child' child ∈ steps parent kind tree) : child ∈ tree.children := by
  unfold steps at member
  split at member
  case h_1 => exact mem_children_of_stepAmong member
  case h_2 | h_3 | h_4 => exact mem_children_of_stepAmong member
  case h_5 =>
    obtain ⟨slot, _, inside⟩ := List.mem_flatMap.mp member
    exact mem_children_of_mem_slot inside

/-- Takes the next number for the node of an element. -/
def enter (limits : Limits) (parent : Option NodeId) (kind : Kind) (tree : Tree) : M NodeId := do
  let state ← get
  let id := state.nodes.size
  limits.check .nodes (id + 1)
  set { state with
    nodes := state.nodes.push
      { label := tree.attribute? "id", parent, construct := .bare kind }
    links := state.links.setIfInBounds tree.index (some id) }
  return id

/-- Puts what was read into the place of the node. -/
def leave (id : NodeId) (construct : Construct) (children : List Child) : M Unit :=
  modify fun state =>
    { state with nodes := state.nodes.modify id ({ · with construct, children }) }

/-- A schema lists its children kind by kind. -/
def arrange (kind : Kind) (children : List Child) : List Child :=
  if kind = .schema then topLevel.flatMap fun kind => children.filter (·.kind = kind) else children

/-- Reads the element as a construct of the kind, and its children after it. -/
def node (limits : Limits) (parent : Option Child) (kind : Kind) (tree : Tree) : M NodeId := do
  let id ← enter limits (parent.map Child.id) kind tree
  let construct ← stated tree kind
  let children ← (steps (parent.map Child.kind) kind tree).attach.filterMapM fun ⟨step, _⟩ =>
    match step with
    | .skip notice => do
      report [notice]
      return none
    | .read childKind child => do
      return some ⟨childKind, ← node limits (some ⟨kind, id⟩) childKind child⟩
  let (construct, notices) := withFacets tree (parent.map Child.kind) construct
  report notices
  leave id construct (arrange kind children)
  return id
  termination_by sizeOf tree
  decreasing_by exact Tree.sizeOf_lt_of_mem_children (mem_children_of_mem_steps ‹_›)

def document (limits : Limits) (document : Document) : M NodeId := do
  match document.tree? with
  | none => throw .emptySchema
  | some tree =>
    if tree.name ≠ Kind.schema.tag then throw (.unexpectedRoot tree.name)
    let root ← node limits none .schema tree
    report [.schemaParsed (← get).nodes.size]
    return root

end SchemaClasses.Reading
