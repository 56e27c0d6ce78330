import Mathlib
import SchemaClasses.Derivation.Filling

/-! Plans say as data how the builder of a node is derived: what is written into it, and which other
nodes are asked for on the way. Derivation carries out these plans, and expansion goes through the
parts of a group, as the last theorems show. -/

namespace SchemaClasses

/-- What is written into a builder without making or asking for another. -/
inductive Mark where
  | declared (name : Option String)
  | className (name : String)
  | builtin (type : Builtin)
  | tag (name : String)
  /-- A list of items of no known type. -/
  | list

def Mark.apply : Mark → Builder → Builder
  | declared name, builder => { builder with className := name.map Name.camel, fieldTag := name }
  | className name, builder => { builder with className := some (Name.camel name) }
  | builtin type, builder => { builder with target := some (.builtin type) }
  | tag name, builder => { builder with fieldTag := some name }
  | list, builder => { builder with target := some .list, item := none }

/-- What another builder is to a builder. -/
inductive Role where
  | base
  | item
  | repeated (name : Option String)
  | field

def Role.link (role : Role) (other : BuilderId) (builder : Builder) : Builder :=
  match role with
  | base => { builder with base := some other }
  | item => { builder with target := some .list, item := some other }
  | repeated name => { builder with target := some .list, fieldTag := name, item := some other }
  | field => { builder with fields := builder.fields ++ [other] }

inductive Entry where
  | mark (mark : Mark)
  | rules (rules : List Rule)
  /-- Links to a new builder for a built-in type. -/
  | plain (role : Role) (type : Builtin)
  /-- Links to the builder of another node. -/
  | ask (role : Role) (id : NodeId)
  /-- Lets a node inside of this one write into the same builder. -/
  | embed (id : NodeId)
  /-- Appends the fields that a group stands for. -/
  | append (id : NodeId)
  | notice (notice : Notice)

inductive Plan where
  /-- The builder is that of another node. -/
  | share (referenced : NodeId)
  /-- The builder is made and filled. If it is `wrapped`, it stands for repetitions of a builder of
  its own, and that one is filled. -/
  | build (notices : BuilderId → List Notice) (wrapped : Option (Option String)) (entries : List Entry)

/-- What a group consists of. -/
inductive Part where
  | leaf (id : NodeId)
  | group (id : NodeId)
  | notice (notice : Notice)

namespace TypeRef

def declared (name : Option String) : TypeRef → Entry
  | builtin type => .mark (.builtin type)
  | simple id | complex id => .ask .base id
  | named typeName => .notice (.unresolvedDeclarationType name typeName)

def extended : TypeRef → Entry
  | builtin type => .plain .base type
  | simple id | complex id => .ask .base id
  | named name => .notice (.unresolvedBase name)

end TypeRef

namespace Node

def modelEntries (node : Node) : List Entry :=
  ((node.child? .group).toList ++ (node.child? .choice).toList ++ (node.child? .sequence).toList).map .append

def itemEntries (node : Node) : Option TypeRef → List Entry
  | some (.builtin type) => [.plain .item type]
  | some (.simple id) | some (.complex id) => [.ask .item id]
  | some (.named name) => [.notice (.unresolvedItem name), .mark .list]
  | none =>
    match node.child? .simpleType with
    | some id => [.ask .item id]
    | none => [.mark .list]

end Node

namespace Nodes
variable (nodes : Nodes)

def attributes (node : Node) : List NodeId :=
  (node.childrenOf .attr).filter fun id => !Derive.isProhibited nodes id

def attributeEntries (node : Node) : List Entry :=
  (nodes.attributes node).map (.ask .field) ++ (node.childrenOf .attrGroup).map .append

def entries (id : NodeId) : List Entry :=
  let node := nodes.get id
  match node.construct with
  | .element decl =>
    .mark (.declared decl.name) :: decl.type.toList.map (TypeRef.declared decl.name)
      ++ ((node.child? .complexType).toList ++ (node.child? .simpleType).toList).map .embed
  | .attr decl =>
    .mark (.declared decl.name) :: decl.type.toList.map (TypeRef.declared decl.name)
      ++ (node.child? .simpleType).toList.map .embed
  | .complexType name _ _ =>
    name.toList.map (fun name => .mark (.className name))
      ++ ((node.child? .simpleContent).toList ++ (node.child? .complexContent).toList).map .embed
      ++ node.modelEntries ++ (node.child? .all).toList.map .append ++ nodes.attributeEntries node
  | .simpleType name =>
    name.toList.map (fun name => .mark (.className name))
      ++ ((node.child? .restriction).toList ++ (node.child? .list).toList).map .embed
      ++ if (node.child? .union).isSome then [.plain .base .anySimpleType] else []
  | .simpleContent _ | .complexContent _ =>
    ((node.child? .restriction).toList ++ (node.child? .extension).toList).map .embed
  | .restriction base facets =>
    base.toList.map TypeRef.extended ++ node.modelEntries ++ nodes.attributeEntries node
      ++ (node.child? .simpleType).toList.map (.ask .field) ++ [.rules facets.rules]
  | .extension base =>
    base.toList.map TypeRef.extended ++ node.modelEntries ++ nodes.attributeEntries node
  | .list itemType => node.itemEntries itemType
  | .union _ => [.plain .base .anySimpleType]
  | .schema _ | .group .. | .attrGroup .. | .sequence _ | .choice _ | .all _ => [.append id]

def derivationNotices (id : NodeId) (builder : BuilderId) : List Notice :=
  [.derivation (nodes.get id).info builder.text]

def plan (id : NodeId) : Plan :=
  match (nodes.get id).construct with
  | .element decl =>
    match decl.ref with
    | some (.named name) => .build (fun _ => [.unresolvedElement name]) none [.mark (.tag name)]
    | some (.resolved referenced) =>
      if decl.occurs.isMultiple then
        .build (fun _ => []) none [.ask (.repeated (nodes.get referenced).name?) referenced]
      else .share referenced
    | none =>
      .build (nodes.derivationNotices id) (if decl.occurs.isMultiple then some decl.name else none)
        (nodes.entries id)
  | .attr { ref := some (.resolved referenced), .. } => .share referenced
  | _ => .build (nodes.derivationNotices id) none (nodes.entries id)

def planned (id : NodeId) : List Entry :=
  match nodes.plan id with
  | .build _ _ entries => entries
  | .share _ => []

def particle (id : NodeId) : Part :=
  match nodes.kindOf id with
  | .element => .leaf id
  | _ => .group id

/-- What a reference to a group stands for. -/
def referredPart (ref : NodeRef) (unresolved : String → Notice) : Part :=
  match ref with
  | .resolved id => .group id
  | .named name => .notice (unresolved name)

def parts (id : NodeId) : List Part :=
  let node := nodes.get id
  match node.construct with
  | .schema _ =>
    (node.childrenOf .element ++ node.childrenOf .complexType ++ node.childrenOf .simpleType).map .leaf
  | .group _ (some ref) _ => [referredPart ref .unresolvedGroup]
  | .group _ none _ =>
    ((node.child? .choice).toList ++ (node.child? .sequence).toList ++ (node.child? .all).toList).map .group
  | .attrGroup _ (some ref) => [referredPart ref .unresolvedAttributeGroup]
  | .attrGroup _ none =>
    (nodes.attributes node).map .leaf ++ (node.childrenOf .attrGroup).map .group
  | .sequence _ | .all _ | .choice _ => (node.children.map Child.id).map nodes.particle
  | _ => [.leaf id]

/-- Whether exactly one of the members must be taken. -/
def isSingleChoice (id : NodeId) : Bool :=
  match (nodes.get id).construct with
  | .choice occurs => occurs = {}
  | _ => false

end Nodes

namespace Derive
variable (nodes : Nodes) (recursion : Recursion)

def perform (builder : BuilderId) : Entry → Derive Unit
  | .mark mark => edit (·.modify builder mark.apply)
  | .rules rules => edit (·.pushRules builder rules)
  | .plain role type => do
    let other ← make (·.createBuiltin type)
    edit (·.modify builder (role.link other))
  | .ask role id => do
    let other ← recursion.builder id none
    edit (·.modify builder (role.link other))
  | .embed id => discard (recursion.builder id (some builder))
  | .append id => append recursion builder id
  | .notice notice => report notice

def unwrap (builder : BuilderId) : Option (Option String) → Derive BuilderId
  | none => return builder
  | some name => do
    let item ← make Builders.create
    edit (·.modify builder ((Role.repeated name).link item))
    return item

/-- The builder of a node, and the one that its entries are written into. -/
def prepare (id : NodeId) (target : Option BuilderId) (notices : BuilderId → List Notice)
    (wrapped : Option (Option String)) : Derive (BuilderId × BuilderId) := do
  let builder ← makeUnless target
  remember id builder
  (notices builder).forM report
  return (builder, ← unwrap builder wrapped)

def follow (id : NodeId) (target : Option BuilderId) : Plan → Derive BuilderId
  | .share referenced => share recursion id referenced
  | .build notices wrapped entries => do
    let (builder, filled) ← prepare id target notices wrapped
    entries.forM (perform recursion filled)
    return builder

def part (path : List NodeId) : Part → Derive Expansion
  | .leaf id => return { fields := [← recursion.builder id none] }
  | .group id => recursion.expansion path id
  | .notice notice => do
    report notice
    return {}

/-- Adds the options of a choice among what it stands for. -/
def withOptions (id : NodeId) (content : Expansion) : Derive Expansion := do
  if nodes.isSingleChoice id then
    return { content with choices := content.choices ++ [← options content.fields] }
  else return content

end Derive

namespace Derive
variable (nodes : Nodes) (recursion : Recursion)

private theorem embed_eq (builder : BuilderId) (ids : List NodeId) :
    embed recursion builder ids = forM (ids.map Entry.embed) (perform recursion builder) := by
  simp only [embed, List.forM_map, perform]
  rfl

private theorem appendModel_eq (builder : BuilderId) (node : Node) :
    appendModel recursion builder node = forM node.modelEntries (perform recursion builder) := by
  simp only [appendModel, Node.modelEntries, List.forM_map, perform]
  rfl

private theorem ask_field_eq (builder : BuilderId) (ids : List NodeId) :
    forM ids (appendAttribute recursion builder) = forM (ids.map (Entry.ask .field)) (perform recursion builder) := by
  simp only [List.forM_map, perform]
  rfl

private theorem append_eq (builder : BuilderId) (ids : List NodeId) :
    forM ids (append recursion builder) = forM (ids.map Entry.append) (perform recursion builder) := by
  simp only [List.forM_map, perform]

private theorem appendAttributes_eq (builder : BuilderId) (node : Node) :
    appendAttributes nodes recursion builder node = forM (nodes.attributeEntries node) (perform recursion builder) := by
  simp only [appendAttributes, Nodes.attributeEntries, Nodes.attributes, List.forM_append, List.forM_eq_forM,
    ask_field_eq, append_eq]

private theorem declare_eq (builder : BuilderId) (name : Option String) (type : Option TypeRef) :
    declare recursion builder name type =
      forM (.mark (.declared name) :: type.toList.map (TypeRef.declared name)) (perform recursion builder) := by
  rcases type with _ | (_ | _ | _ | _) <;>
    simp [declare, TypeRef.declared, perform] <;>
    rfl

private theorem setBaseType_eq (builder : BuilderId) (base : Option TypeRef) :
    setBaseType recursion builder base = forM (base.toList.map TypeRef.extended) (perform recursion builder) := by
  rcases base with _ | (_ | _ | _ | _)
  · simp [setBaseType]
  · simp [setBaseType, TypeRef.extended, perform]
  all_goals
    simp [setBaseType, TypeRef.extended, perform]
    rfl

private theorem setClassName_eq (builder : BuilderId) (name : Option String) :
    setClassName builder name =
      forM (name.toList.map fun name => .mark (.className name)) (perform recursion builder) := by
  cases name with
  | none => simp [setClassName]
  | some name =>
    simp [setClassName, perform]
    rfl

private theorem item_eq (builder : BuilderId) (node : Node) (itemType : Option TypeRef) :
    (do setList builder (← itemOf recursion itemType (node.child? .simpleType))) =
      forM (node.itemEntries itemType) (perform recursion builder) := by
  cases itemType with
  | some type =>
    cases type <;>
      simp [itemOf, Node.itemEntries, perform] <;>
      rfl
  | none =>
    cases child : node.child? .simpleType <;>
      simp [itemOf, Node.itemEntries, perform, child] <;>
      rfl

private theorem plainBase_eq (builder : BuilderId) (type : Builtin) :
    edit (·.setBuiltinBase builder type) = perform recursion builder (.plain .base type) := rfl

/-- What a node other than an element contributes is what its entries say. -/
theorem fill_eq (builder : BuilderId) (id : NodeId) (plain : nodes.kindOf id ≠ .element) :
    fill nodes recursion builder id = forM (nodes.entries id) (perform recursion builder) := by
  cases construct : (nodes.get id).construct with
  | element decl => exact absurd (by simp [Nodes.kindOf, Node.kind, construct, Construct.kind]) plain
  | attr decl => simp [fill, Nodes.entries, construct, embed_eq, declare_eq]
  | complexType name mixed isAbstract =>
    simp [fill, Nodes.entries, construct, setClassName_eq recursion, embed_eq, appendModel_eq, append_eq,
      appendAttributes_eq]
  | simpleType name =>
    by_cases union : ((nodes.get id).child? .union).isSome = true <;>
      simp [fill, Nodes.entries, construct, setClassName_eq recursion, embed_eq, union, plainBase_eq recursion]
  | simpleContent mixed | complexContent mixed => simp [fill, Nodes.entries, construct, embed_eq]
  | restriction base facets =>
    simp [fill, Nodes.entries, construct, setBaseType_eq, appendModel_eq, appendAttributes_eq, ask_field_eq]
    rfl
  | extension base => simp [fill, Nodes.entries, construct, setBaseType_eq, appendModel_eq, appendAttributes_eq]
  | list itemType =>
    simp only [fill, Nodes.entries, construct]
    exact item_eq recursion builder _ itemType
  | union memberTypes => simp [fill, Nodes.entries, construct, plainBase_eq recursion]
  | schema _ | group _ _ _ | attrGroup _ _ | sequence _ | choice _ | all _ =>
    simp [fill, Nodes.entries, construct, perform]

theorem fill_element_eq (builder : BuilderId) (id : NodeId) {decl : ElementDecl}
    (construct : (nodes.get id).construct = .element decl) :
    fill nodes recursion builder id = (do
      let item ← unwrap builder (if decl.occurs.isMultiple then some decl.name else none)
      forM (nodes.entries id) (perform recursion item)) := by
  by_cases multiple : decl.occurs.isMultiple = true
  · simp [fill, Nodes.entries, construct, itemBuilder, multiple, unwrap, declare_eq, embed_eq]
    rfl
  · simp [fill, Nodes.entries, construct, itemBuilder, multiple, unwrap, declare_eq, embed_eq]

private theorem describe_eq (id : NodeId) (target : Option BuilderId) (plain : nodes.kindOf id ≠ .element) :
    describe nodes recursion id target =
      follow recursion id target (.build (nodes.derivationNotices id) none (nodes.entries id)) := by
  simp [describe, follow, prepare, Nodes.derivationNotices, unwrap, fill_eq nodes recursion _ id plain]

private theorem describe_element_eq (id : NodeId) (target : Option BuilderId) {decl : ElementDecl}
    (construct : (nodes.get id).construct = .element decl) :
    describe nodes recursion id target =
      follow recursion id target (.build (nodes.derivationNotices id)
        (if decl.occurs.isMultiple then some decl.name else none) (nodes.entries id)) := by
  simp [describe, follow, prepare, Nodes.derivationNotices, fill_element_eq nodes recursion _ id construct]

private theorem elementUse_named_eq (id : NodeId) (target : Option BuilderId) (occurs : Occurs) (name : String) :
    elementUse nodes recursion id target occurs (.named name) =
      follow recursion id target (.build (fun _ => [.unresolvedElement name]) none [.mark (.tag name)]) := by
  cases target <;> rfl

private theorem elementUse_repeated_eq (id : NodeId) (target : Option BuilderId) {occurs : Occurs}
    (repeated : occurs.isMultiple = true) (referenced : NodeId) :
    elementUse nodes recursion id target occurs (.resolved referenced) =
      follow recursion id target
        (.build (fun _ => []) none [.ask (.repeated (nodes.get referenced).name?) referenced]) := by
  simp [elementUse, repeated, follow, prepare, unwrap, perform]
  rfl

/-- Deriving the builder of a node that has none is following its plan. -/
theorem derive_eq (id : NodeId) (target : Option BuilderId) :
    derive nodes recursion id target = (do
      match ← builder? id with
      | some builder => return builder
      | none => follow recursion id target (nodes.plan id)) := by
  unfold derive
  congr 1
  funext known
  cases known with
  | some builder => rfl
  | none =>
    have plain (other : nodes.kindOf id ≠ .element) := describe_eq nodes recursion id target other
    simp only [Nodes.kindOf, Node.kind] at plain
    cases construct : (nodes.get id).construct with
    | element decl =>
      have described := describe_element_eq nodes recursion id target construct
      obtain ⟨name, type, ref, occurs⟩ := decl
      rcases ref with _ | (name | referenced)
      · simp only [Nodes.plan, construct, described]
      · simp only [Nodes.plan, construct, elementUse_named_eq]
      · by_cases repeated : occurs.isMultiple = true
        · simp only [Nodes.plan, construct, repeated, elementUse_repeated_eq nodes recursion id target repeated,
            if_true]
        · simp [Nodes.plan, construct, repeated, elementUse, follow]
    | attr decl =>
      have described := plain (by simp [construct, Construct.kind])
      obtain ⟨name, type, ref, usage⟩ := decl
      rcases ref with _ | (_ | referenced)
      · simp only [Nodes.plan, construct, described]
      · simp only [Nodes.plan, construct, described]
      · simp only [Nodes.plan, construct, follow]
    | _ =>
      have described := plain (by simp [construct, Construct.kind])
      simp only [Nodes.plan, construct, described]

private theorem leaves_eq (path ids : List NodeId) :
    (do return ({ fields := ← fields recursion ids } : Expansion)) =
      Expansion.join <$> (ids.map Part.leaf).mapM (part recursion path) := by
  induction ids with
  | nil => rfl
  | cons id ids ih =>
    have rest := congrArg (fun rest : Derive Expansion => do
      let first ← recursion.builder id none
      let rest ← rest
      return ({ fields := first :: rest.fields, choices := rest.choices } : Expansion)) ih
    simpa [fields, part, Expansion.join] using rest

private theorem groups_eq (path ids : List NodeId) :
    expandAll recursion path ids = Expansion.join <$> (ids.map Part.group).mapM (part recursion path) := by
  simp only [expandAll, List.mapM_map]
  simp [part, Function.comp_def]

private theorem members_eq (path : List NodeId) (node : Node) :
    members nodes recursion path node =
      Expansion.join <$> ((node.children.map Child.id).map nodes.particle).mapM (part recursion path) := by
  have same : particle nodes recursion path = fun id => part recursion path (nodes.particle id) := by
    funext id
    unfold particle Nodes.particle
    cases nodes.kindOf id <;> rfl
  simp [members, particles, same, Function.comp_def]

private theorem referred_eq (path : List NodeId) (ref : NodeRef) (unresolved : String → Notice) :
    referred recursion path ref unresolved =
      Expansion.join <$> [Nodes.referredPart ref unresolved].mapM (part recursion path) := by
  cases ref <;> simp [referred, Nodes.referredPart, part, Expansion.join]

/-- What a node stands for is what its parts stand for, with the options of a choice added. -/
theorem expand_eq (path : List NodeId) (id : NodeId) :
    expand nodes recursion path id =
      Expansion.join <$> (nodes.parts id).mapM (part recursion path) >>= withOptions nodes id := by
  have single : nodes.isSingleChoice id = match (nodes.get id).construct with
    | .choice occurs => decide (occurs = {})
    | _ => false := rfl
  cases construct : (nodes.get id).construct with
  | schema targetNamespace =>
    have parts : nodes.parts id = (((nodes.get id).childrenOf .element ++ (nodes.get id).childrenOf .complexType
        ++ (nodes.get id).childrenOf .simpleType).map .leaf) := by simp only [Nodes.parts, construct]
    rw [parts, ← leaves_eq]
    simp [expand, construct, withOptions, single]
  | group name ref occurs =>
    cases ref with
    | none =>
      simp only [expand, Nodes.parts, construct, groups_eq]
      simp [withOptions, single, construct]
    | some ref =>
      simp only [expand, Nodes.parts, construct, referred_eq]
      simp [withOptions, single, construct]
  | attrGroup name ref =>
    cases ref with
    | none =>
      have leaves := leaves_eq recursion path (nodes.attributes (nodes.get id))
      have joined := congrArg (fun own : Derive Expansion => do
        let own ← own
        let nested ← expandAll recursion path ((nodes.get id).childrenOf .attrGroup)
        return Expansion.join [own, nested]) leaves
      simp only [Nodes.attributes, groups_eq] at joined
      simp only [expand, Nodes.parts, construct, attributeFields, groups_eq]
      simp [withOptions, single, construct, Expansion.join] at joined ⊢
      simpa [Nodes.attributes] using joined
    | some ref =>
      simp only [expand, Nodes.parts, construct, referred_eq]
      simp [withOptions, single, construct]
  | choice occurs =>
    simp only [expand, Nodes.parts, construct, members_eq]
    simp [withOptions, single, construct]
  | sequence occurs | all occurs =>
    simp only [expand, Nodes.parts, construct, members_eq]
    simp [withOptions, single, construct]
  | _ => simp [expand, Nodes.parts, construct, withOptions, single, part, Expansion.join]

end Derive

end SchemaClasses
