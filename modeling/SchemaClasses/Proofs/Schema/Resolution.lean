import SchemaClasses.Proofs.Schema.Loading
import Mathlib.Order.Bounds.Defs

/-! What references become. A name is linked to the first declaration that it means, and nothing else of a
node changes. What is linked once stays as it is. -/

namespace SchemaClasses

namespace Nodes

structure Names (nodes : Nodes) (kind : Kind) (name : String) (id : NodeId) : Prop where
  inside : id < nodes.size
  kind : nodes.kindOf id = kind
  name : (nodes.get id).name?.map Name.localPart = some (Name.localPart name)

/-- A declaration that a name can mean. Elements and attributes are declared directly in the schema. -/
structure Declares (nodes : Nodes) (kind : Kind) (name : String) (id : NodeId) :
    Prop extends nodes.Names kind name id where
  top : nodes.kindOf id = .element ∨ nodes.kindOf id = .attr → ∃ parent, (nodes.get id).parent = some parent ∧
    nodes.kindOf parent = .schema

/-- The first declaration that a name can mean. -/
abbrev DeclaresFirst (nodes : Nodes) (kind : Kind) (name : String) (id : NodeId) : Prop :=
  IsLeast {id | nodes.Declares kind name id} id

/-- What becomes of a reference to a type. -/
inductive TypeBecomes (nodes : Nodes) : TypeRef → TypeRef → Prop where
  | builtin {name type} (label : type.label = Name.localPart name) : TypeBecomes nodes (.named name) (.builtin type)
  | simple {name id} (plain : ∀ type : Builtin, type.label ≠ Name.localPart name)
      (first : nodes.DeclaresFirst .simpleType name id) :
      TypeBecomes nodes (.named name) (.simple id)
  | complex {name id} (plain : ∀ type : Builtin, type.label ≠ Name.localPart name)
      (none : ∀ id, ¬nodes.Declares .simpleType name id)
      (first : nodes.DeclaresFirst .complexType name id) : TypeBecomes nodes (.named name) (.complex id)
  | unknown {name} (plain : ∀ type : Builtin, type.label ≠ Name.localPart name)
      (none : ∀ id, ¬nodes.Declares .simpleType name id)
      (neither : ∀ id, ¬nodes.Declares .complexType name id) : TypeBecomes nodes (.named name) (.named name)
  | known {ref} (resolved : ref.isResolved = true) : TypeBecomes nodes ref ref

/-- What becomes of a reference to a declaration of a kind. -/
inductive RefBecomes (nodes : Nodes) (kind : Kind) : NodeRef → NodeRef → Prop where
  | declared {name id} (first : nodes.DeclaresFirst kind name id) : RefBecomes nodes kind (.named name) (.resolved id)
  | unknown {name} (none : ∀ id, ¬nodes.Declares kind name id) : RefBecomes nodes kind (.named name) (.named name)
  | known {id} : RefBecomes nodes kind (.resolved id) (.resolved id)

end Nodes

namespace Construct

/-- Constructs that are the same but for their references. -/
inductive Relinked (type : TypeRef → TypeRef → Prop) (ref : Kind → NodeRef → NodeRef → Prop) :
    Construct → Construct → Prop where
  | element {decl type' ref'} (types : Option.Rel type decl.type type')
      (refs : Option.Rel (ref .element) decl.ref ref') :
      Relinked type ref (.element decl) (.element { decl with type := type', ref := ref' })
  | attr {decl type' ref'} (types : Option.Rel type decl.type type') (refs : Option.Rel (ref .attr) decl.ref ref') :
      Relinked type ref (.attr decl) (.attr { decl with type := type', ref := ref' })
  | attrGroup {name own ref'} (refs : Option.Rel (ref .attrGroup) own ref') :
      Relinked type ref (.attrGroup name own) (.attrGroup name ref')
  | group {name own ref' occurs} (refs : Option.Rel (ref .group) own ref') :
      Relinked type ref (.group name own occurs) (.group name ref' occurs)
  | restriction {base base' facets} (types : Option.Rel type base base') :
      Relinked type ref (.restriction base facets) (.restriction base' facets)
  | extension {base base'} (types : Option.Rel type base base') : Relinked type ref (.extension base) (.extension base')
  | list {item item'} (types : Option.Rel type item item') : Relinked type ref (.list item) (.list item')
  | union {members members'} (types : List.Forall₂ type members members') :
      Relinked type ref (.union members) (.union members')
  | plain {construct} (types : construct.typeRefs = []) (refs : construct.nodeRef? = none) :
      Relinked type ref construct construct

def openRefs (construct : Construct) : Nat :=
  construct.typeRefs.countP (· matches .named _) + construct.nodeRef?.toList.countP (· matches .named _)

namespace Relinked
variable {type : TypeRef → TypeRef → Prop} {ref : Kind → NodeRef → NodeRef → Prop} {before after : Construct}

theorem kind (relinked : Relinked type ref before after) : after.kind = before.kind := by
  cases relinked <;> rfl

theorem name (relinked : Relinked type ref before after) : after.name? = before.name? := by
  cases relinked <;> rfl

end Relinked

end Construct

section Lookup
variable {nodes : Nodes} {kind : Kind} {name : String} {id : NodeId}

def Index.answers (nodes : Nodes) (kind : Kind) (name : String) (node : Node) : Bool :=
  node.kind = kind && node.name?.map Name.localPart == some (Name.localPart name) && isReferable nodes node

theorem Index.find?_add {index : Index} {node : Node} :
    (index.add nodes node id).1.find? kind name =
      (index.find? kind name).or (if answers nodes kind name node then some id else none) := by
  unfold Index.add
  split
  · next unnamed => simp [answers, unnamed]
  · next own named =>
    split
    · next inner =>
      have hidden : isReferable nodes node = false := Bool.not_eq_true' _ ▸ inner
      rw [answers, hidden, Bool.and_false, if_neg Bool.false_ne_true, Option.or_none]
    · next outer =>
      have referable : isReferable nodes node = true := by simpa using outer
      have meant : answers nodes kind name node = true ↔
          (kind, Name.localPart name) = (node.kind, Name.localPart own) := by
        simp only [answers, named, referable, Option.map_some, Bool.and_true, Bool.and_eq_true, decide_eq_true_eq,
          beq_iff_eq, Option.some.injEq, Prod.mk.injEq, eq_comm (a := kind), eq_comm (a := Name.localPart name)]
      split
      · next taken =>
        split
        · next same =>
          have key := meant.mp same
          rw [find?, key, ← find?, Option.or_of_isSome taken]
        · rw [Option.or_none]
      · simp only [find?, List.lookup_append, List.lookup_cons, List.lookup_nil, meant]
        by_cases same : (kind, Name.localPart name) = (node.kind, Name.localPart own)
        · rw [beq_iff_eq.mpr same, if_pos same]
        · rw [beq_eq_false_iff_ne.mpr same, if_neg same]

/-- What a name means in the declarations so far comes first, then what it means in those that follow. -/
theorem Index.find?_addAll (pairs : List (Node × NodeId)) (index : Index) (notices : List Notice) :
    (pairs.foldl (fun (index, notices) (node, id) =>
        let (index, more) := index.add nodes node id
        (index, notices ++ more)) (index, notices)).1.find? kind name =
      (index.find? kind name).or ((pairs.find? fun pair => answers nodes kind name pair.1).map Prod.snd) := by
  induction pairs generalizing index notices with
  | nil => simp
  | cons pair pairs ih =>
    rw [List.foldl_cons, ih, find?_add, List.find?_cons, Option.or_assoc]
    split <;> simp_all

/-- An index leads to the first node that a name can mean. -/
theorem Index.find?_ofNodes : (ofNodes nodes).1.find? kind name = nodes.findIdx? (answers nodes kind name) := by
  obtain ⟨list⟩ := nodes
  rw [List.findIdx?_toArray, List.findIdx?_eq_fst_find?_zipIdx, ofNodes, find?_addAll]
  rfl

private theorem Nodes.get_inside (inside : id < nodes.size) : nodes.get id = nodes[id] := by
  simp [Nodes.get, inside]

theorem Nodes.findIdx?_eq_some_iff {found : Node → Bool} :
    nodes.findIdx? found = some id ↔ IsLeast {id | id < nodes.size ∧ found (nodes.get id) = true} id := by
  rw [Array.findIdx?_eq_some_iff_getElem]
  constructor
  · intro ⟨inside, own, first⟩
    refine ⟨⟨inside, by rw [get_inside inside]; exact own⟩, ?_⟩
    intro other ⟨within, also⟩
    rw [get_inside within] at also
    exact Nat.le_of_not_lt fun earlier => first other earlier also
  · intro ⟨⟨inside, own⟩, first⟩
    refine ⟨inside, by rw [← get_inside inside]; exact own, ?_⟩
    intro other earlier also
    have within := Nat.lt_trans earlier inside
    exact Nat.not_le.mpr earlier (first ⟨within, by rw [get_inside within]; exact also⟩)

theorem Index.answers_iff :
    (id < nodes.size ∧ answers nodes kind name (nodes.get id) = true) ↔ nodes.Declares kind name id := by
  have referable : isReferable nodes (nodes.get id) = true ↔ (nodes.kindOf id = .element ∨ nodes.kindOf id = .attr →
      ∃ parent, (nodes.get id).parent = some parent ∧ nodes.kindOf parent = .schema) := by
    unfold isReferable
    change _ ↔ ((nodes.get id).kind = .element ∨ (nodes.get id).kind = .attr → _)
    split
    · next element => simp [element]
    · next attr => simp [attr]
    · next element attr =>
      exact iff_of_true rfl fun either => either.elim (fun kind => (element kind).elim) fun kind => (attr kind).elim
  simp only [answers, Bool.and_eq_true, decide_eq_true_eq, beq_iff_eq, referable]
  constructor
  · intro ⟨inside, ⟨kind, name⟩, top⟩
    exact ⟨⟨inside, kind, name⟩, top⟩
  · intro ⟨⟨inside, kind, name⟩, top⟩
    exact ⟨inside, ⟨kind, name⟩, top⟩

theorem Index.find?_eq_some_iff : (ofNodes nodes).1.find? kind name = some id ↔ nodes.DeclaresFirst kind name id := by
  simp only [find?_ofNodes, Nodes.findIdx?_eq_some_iff, answers_iff]

theorem Index.find?_eq_none_iff : (ofNodes nodes).1.find? kind name = none ↔ ∀ id, ¬nodes.Declares kind name id := by
  constructor
  · intro none id declares
    rw [find?_ofNodes, Array.findIdx?_eq_none_iff] at none
    obtain ⟨inside, answer⟩ := answers_iff.mpr declares
    rw [Nodes.get_inside inside, none _ (Array.getElem_mem inside)] at answer
    cases answer
  · intro none
    rw [Option.eq_none_iff_forall_ne_some]
    intro id found
    exact none id (find?_eq_some_iff.mp found).1

/-- A schema finds the first node of a name, wherever it stands. -/
theorem Schema.find?_eq_some_iff {schema : Schema} :
    schema.find? kind name = some id ↔ IsLeast {id | schema.nodes.Names kind name id} id := by
  have names (id : NodeId) : (id < schema.nodes.size ∧ ((schema.nodes.get id).kind = kind &&
      (schema.nodes.get id).name?.map Name.localPart == some (Name.localPart name)) = true) ↔
      schema.nodes.Names kind name id := by
    simp only [Bool.and_eq_true, decide_eq_true_eq, beq_iff_eq]
    exact ⟨fun ⟨inside, kind, name⟩ => ⟨inside, kind, name⟩, fun ⟨inside, kind, name⟩ => ⟨inside, kind, name⟩⟩
  rw [Schema.find?, Nodes.findIdx?_eq_some_iff]
  simp only [names]

end Lookup

section Meaning
variable {nodes : Nodes} {index : Index}

theorem Builtin.ofName?_eq_some_iff {name : String} {type : Builtin} :
    ofName? name = some type ↔ type.label = Name.localPart name := by
  have listed : type ∈ all := by cases type <;> decide
  have distinct : ∀ first ∈ all, ∀ second ∈ all, first.label = second.label → first = second := by decide
  have labelled {other : Builtin} (found : ofName? name = some other) : other.label = Name.localPart name :=
    beq_iff_eq.mp (@List.find?_some _ (fun type : Builtin => type.label == Name.localPart name) _ _ found)
  refine ⟨labelled, fun label => ?_⟩
  cases found : ofName? name with
  | none => exact absurd (beq_iff_eq.mpr label) (List.find?_eq_none.mp found type listed)
  | some other =>
    have same := labelled found
    rw [distinct other (List.mem_of_find?_eq_some found) type listed (same.trans label.symm)]

theorem Builtin.ofName?_eq_none_iff {name : String} :
    ofName? name = none ↔ ∀ type : Builtin, type.label ≠ Name.localPart name := by
  simp only [Option.eq_none_iff_forall_ne_some, ne_eq, ofName?_eq_some_iff]

theorem TypeRef.resolve_becomes (ref : TypeRef) : nodes.TypeBecomes ref (ref.resolve (Index.ofNodes nodes).1).1 := by
  cases ref with
  | named name =>
    simp only [resolve, Index.type]
    split
    · next type found => exact .builtin (Builtin.ofName?_eq_some_iff.mp found)
    · next plain =>
      have plain := Builtin.ofName?_eq_none_iff.mp plain
      split
      · next id found => exact .simple plain (Index.find?_eq_some_iff.mp found)
      · next none =>
        have none := Index.find?_eq_none_iff.mp none
        split
        · next id found => exact .complex plain none (Index.find?_eq_some_iff.mp found)
        · next neither => exact .unknown plain none (Index.find?_eq_none_iff.mp neither)
  | builtin | simple | complex => exact .known rfl

theorem NodeRef.resolve_becomes (kind : Kind) (ref : NodeRef) :
    nodes.RefBecomes kind ref (ref.resolve (Index.ofNodes nodes).1 kind).1 := by
  cases ref with
  | named name =>
    simp only [resolve]
    split
    · next id found => exact .declared (Index.find?_eq_some_iff.mp found)
    · next none => exact .unknown (Index.find?_eq_none_iff.mp none)
  | resolved id => exact .known

private theorem resolveOption_rel {α : Type} {resolve : α → α × List Notice} {becomes : α → α → Prop}
    (each : ∀ ref, becomes ref (resolve ref).1) (ref : Option α) :
    Option.Rel becomes ref (resolveOption resolve ref).1 := by
  cases ref with
  | none => exact .none
  | some ref => exact .some (each ref)

theorem Construct.resolve_relinked (construct : Construct) :
    Relinked nodes.TypeBecomes nodes.RefBecomes construct (construct.resolve (Index.ofNodes nodes).1).1 := by
  have types := resolveOption_rel (@TypeRef.resolve_becomes nodes)
  have refs (kind : Kind) := resolveOption_rel (@NodeRef.resolve_becomes nodes kind)
  cases construct with
  | element decl => exact .element (types decl.type) (refs .element decl.ref)
  | attr decl => exact .attr (types decl.type) (refs .attr decl.ref)
  | attrGroup name ref => exact .attrGroup (refs .attrGroup ref)
  | group name ref occurs => exact .group (refs .group ref)
  | restriction base facets => exact .restriction (types base)
  | extension base => exact .extension (types base)
  | list item => exact .list (types item)
  | union members =>
    apply Relinked.union
    rw [List.map_map, List.forall₂_map_right_iff]
    exact List.forall₂_same.mpr fun member _ => TypeRef.resolve_becomes member
  | _ => exact .plain rfl rfl

end Meaning

def TypeRef.open? : TypeRef → Option String
  | named name => some name
  | _ => none

def NodeRef.open? : NodeRef → Option String
  | named name => some name
  | resolved _ => none

section Count
variable {index : Index}

theorem Index.type_stays (name : String) : index.type name = .named name ∨ (index.type name).isResolved = true := by
  unfold Index.type
  split
  · exact Or.inr rfl
  · split
    · exact Or.inr rfl
    · split
      · exact Or.inr rfl
      · exact Or.inl rfl

theorem TypeRef.resolve_notices (ref : TypeRef) :
    (ref.resolve index).2 = (ref.resolve index).1.open?.toList.map .unresolvedType := by
  cases ref with
  | named name =>
    rcases index.type_stays name with same | resolved
    · rw [resolve, same]
      rfl
    · rw [resolve, if_pos resolved]
      cases type : index.type name with
      | named => rw [type] at resolved; cases resolved
      | builtin | simple | complex => rfl
  | builtin | simple | complex => rfl

theorem NodeRef.resolve_notices (kind : Kind) (ref : NodeRef) :
    (ref.resolve index kind).2 = (ref.resolve index kind).1.open?.toList.map (.unresolvedReference kind.tag) := by
  cases ref with
  | named name =>
    rw [resolve]
    cases index.find? kind name <;> rfl
  | resolved => rfl

private theorem resolveOption_notices {α : Type} {resolve : α → α × List Notice} {open? : α → Option String}
    {notice : String → Notice} (each : ∀ ref, (resolve ref).2 = (open? (resolve ref).1).toList.map notice)
    (ref : Option α) :
    (resolveOption resolve ref).2 = ((resolveOption resolve ref).1.toList.filterMap open?).map notice := by
  cases ref with
  | none => rfl
  | some ref =>
    rw [resolveOption, each, Option.toList_some, List.filterMap_cons, List.filterMap_nil]
    cases open? (resolve ref).1 <;> rfl

private theorem members_notices (members : List TypeRef) :
    (members.map (TypeRef.resolve index)).flatMap Prod.snd =
      (((members.map (TypeRef.resolve index)).map Prod.fst).filterMap TypeRef.open?).map .unresolvedType := by
  induction members with
  | nil => rfl
  | cons member members ih =>
    rw [List.map_cons, List.flatMap_cons, ih, TypeRef.resolve_notices, List.map_cons, List.filterMap_cons]
    cases (member.resolve index).1.open? <;> rfl

theorem Construct.resolve_notices (construct : Construct) : (construct.resolve index).2 =
    ((construct.resolve index).1.typeRefs.filterMap TypeRef.open?).map .unresolvedType ++
      ((construct.resolve index).1.nodeRef?.toList.filterMap NodeRef.open?).map
      (.unresolvedReference construct.kind.tag) := by
  have types := resolveOption_notices (@TypeRef.resolve_notices index)
  have refs (kind : Kind) := resolveOption_notices (@NodeRef.resolve_notices index kind)
  cases construct with
  | element decl | attr decl => simp only [resolve, typeRefs, nodeRef?, types, refs]
  | attrGroup name ref | group name ref occurs =>
    simp only [resolve, typeRefs, nodeRef?, refs, List.filterMap_nil, List.map_nil, List.nil_append]
  | restriction base facets | extension base | list base =>
    simp only [resolve, typeRefs, nodeRef?, types, Option.toList_none, List.filterMap_nil,
      List.map_nil, List.append_nil]
  | union members =>
    simp only [resolve, typeRefs, nodeRef?, members_notices, Option.toList_none, List.filterMap_nil,
      List.map_nil, List.append_nil]
  | _ => rfl

theorem TypeRef.isSome_open? (ref : TypeRef) : ref.open?.isSome = (ref matches .named _) := by
  cases ref <;> rfl

theorem NodeRef.isSome_open? (ref : NodeRef) : ref.open?.isSome = (ref matches .named _) := by
  cases ref <;> rfl

theorem Construct.resolve_length (construct : Construct) :
    (construct.resolve index).2.length = (construct.resolve index).1.openRefs := by
  rw [resolve_notices, openRefs, List.length_append, List.length_map, List.length_map, List.length_filterMap_eq_countP,
    List.length_filterMap_eq_countP]
  simp only [TypeRef.isSome_open?, NodeRef.isSome_open?]

def Nodes.openRefs (nodes : Nodes) : Nat :=
  (nodes.toList.map fun node => node.construct.openRefs).sum

theorem Nodes.resolve_unresolved (nodes : Nodes) : nodes.resolve.unresolved = nodes.resolve.nodes.openRefs := by
  simp only [resolve, openRefs, List.length_flatMap, Array.toList_map, List.map_map]
  congr 2
  funext node
  exact Construct.resolve_length node.construct

theorem Schema.unresolvedTypes_eq (node : Node) :
    unresolvedTypes node = node.construct.typeRefs.filterMap TypeRef.open? := rfl

theorem Schema.unresolvedRef_eq (node : Node) :
    (unresolvedRef? node).toList = node.construct.nodeRef?.toList.filterMap NodeRef.open? := by
  rw [unresolvedRef?]
  rcases node.construct.nodeRef? with _ | ref
  · rfl
  · cases ref <;> rfl

/-- What a schema reports as unresolved are the references that are names. -/
theorem Schema.unresolved_length (schema : Schema) : schema.unresolved.length = schema.nodes.openRefs := by
  rw [unresolved, List.length_append, Nodes.openRefs]
  induction schema.nodes.toList with
  | nil => rfl
  | cons node nodes ih =>
    have own : node.construct.openRefs = (unresolvedTypes node).length + (unresolvedRef? node).toList.length := by
      rw [unresolvedTypes_eq, unresolvedRef_eq, List.length_filterMap_eq_countP, List.length_filterMap_eq_countP,
        Construct.openRefs]
      simp only [TypeRef.isSome_open?, NodeRef.isSome_open?]
    simp only [List.flatMap_cons, List.length_append, List.map_cons, List.sum_cons, ← ih, own]
    cases found : unresolvedRef? node with
    | none => simp only [List.filterMap_cons_none found, Option.toList_none, List.length_nil]; omega
    | some name =>
      simp only [List.filterMap_cons_some found, Option.toList_some, List.length_cons, List.length_nil]; omega

end Count

section Again
variable {nodes : Nodes} {index : Index}

theorem TypeRef.resolve_of_resolved {ref : TypeRef} (resolved : ref.isResolved = true) :
    ref.resolve index = (ref, []) := by
  cases ref with
  | named => cases resolved
  | builtin | simple | complex => rfl

theorem TypeRef.resolve_again (ref : TypeRef) : (ref.resolve index).1.resolve index = ref.resolve index := by
  cases ref with
  | named name =>
    rcases index.type_stays name with same | resolved
    · simp only [resolve, same]
    · rw [resolve, resolve_of_resolved resolved, if_pos resolved]
  | builtin | simple | complex => rfl

theorem NodeRef.resolve_again (kind : Kind) (ref : NodeRef) :
    (ref.resolve index kind).1.resolve index kind = ref.resolve index kind := by
  cases ref with
  | named name => cases found : index.find? kind name <;> simp only [resolve, found]
  | resolved => rfl

private theorem resolveOption_again {α : Type} {resolve : α → α × List Notice}
    (each : ∀ ref, resolve (resolve ref).1 = resolve ref) (ref : Option α) :
    resolveOption resolve (resolveOption resolve ref).1 = resolveOption resolve ref := by
  cases ref with
  | none => rfl
  | some ref => simp only [resolveOption, each]

theorem Construct.resolve_again (construct : Construct) :
    (construct.resolve index).1.resolve index = construct.resolve index := by
  have types := resolveOption_again (@TypeRef.resolve_again index)
  have refs (kind : Kind) := resolveOption_again (@NodeRef.resolve_again index kind)
  cases construct with
  | element decl | attr decl => simp only [resolve, kind, types, refs]
  | attrGroup name ref | group name ref occurs => simp only [resolve, kind, refs]
  | restriction base facets | extension base | list base => simp only [resolve, types]
  | union members =>
    have again : TypeRef.resolve index ∘ Prod.fst ∘ TypeRef.resolve index = TypeRef.resolve index :=
      funext TypeRef.resolve_again
    simp only [resolve, List.map_map, again]
  | _ => rfl

theorem Nodes.resolve_size : nodes.resolve.nodes.size = nodes.size := by
  simp only [resolve, Array.size_map]

theorem Node.resolve_kind (node : Node) : (node.resolve (Index.ofNodes nodes).1).1.kind = node.kind :=
  (@Construct.resolve_relinked nodes node.construct).kind

theorem Node.resolve_name (node : Node) : (node.resolve (Index.ofNodes nodes).1).1.name? = node.name? :=
  (@Construct.resolve_relinked nodes node.construct).name

theorem Nodes.resolve_kindOf (id : NodeId) : nodes.resolve.nodes.kindOf id = nodes.kindOf id := by
  rw [kindOf, resolve_get]
  exact Node.resolve_kind _

theorem Index.ofNodes_map {change : Node → Node} (kind : ∀ node, (change node).kind = node.kind)
    (name : ∀ node, (change node).name? = node.name?) (parent : ∀ node, (change node).parent = node.parent) :
    Index.ofNodes (nodes.map change) = Index.ofNodes nodes := by
  have kinds : Nodes.kindOf (nodes.map change) = nodes.kindOf := by
    funext id
    simp only [Nodes.kindOf, Nodes.get, Array.getD_eq_getD_getElem?, Array.getElem?_map]
    cases nodes[id]? with
    | none => rfl
    | some node => exact kind node
  have add (index : Index) (node : Node) (id : NodeId) :
      index.add (nodes.map change) (change node) id = index.add nodes node id := by
    have referable : isReferable (nodes.map change) (change node) = isReferable nodes node := by
      simp only [isReferable, kind, parent, kinds]
    simp only [Index.add, kind, name, referable]
  rw [Index.ofNodes, Array.toList_map, List.zipIdx_map, List.foldl_map]
  simp only [Prod.map, id, add]
  rfl

theorem Nodes.resolve_nodes : nodes.resolve.nodes = nodes.map fun node => (node.resolve (Index.ofNodes nodes).1).1 := by
  simp only [resolve, Array.map_map, Function.comp_def]

/-- Whatever names lead to stays as it is when they are resolved. -/
theorem Index.ofNodes_resolve : Index.ofNodes nodes.resolve.nodes = Index.ofNodes nodes := by
  rw [Nodes.resolve_nodes]
  exact ofNodes_map Node.resolve_kind Node.resolve_name fun _ => rfl

/-- A second resolution changes nothing and reports the same. -/
theorem Nodes.resolve_again : nodes.resolve.nodes.resolve = nodes.resolve := by
  have each (node : Node) :
      (node.resolve (Index.ofNodes nodes).1).1.resolve (Index.ofNodes nodes).1 =
          node.resolve (Index.ofNodes nodes).1 := by
    simp only [Node.resolve, Construct.resolve_again]
  have same : nodes.resolve.nodes.map (Node.resolve (Index.ofNodes nodes).1) =
      nodes.map (Node.resolve (Index.ofNodes nodes).1) := by
    simp only [resolve, Array.map_map, Function.comp_def, each]
  rw [resolve, Index.ofNodes_resolve]
  simp only [same]
  rfl

end Again

namespace Schema
variable {nodes : Nodes} {kind : Kind} {name : String} {id : NodeId}

theorem names_iff_resolved : nodes.resolve.nodes.Names kind name id ↔ nodes.Names kind name id := by
  have same : (nodes.resolve.nodes.get id).name? = (nodes.get id).name? :=
    Nodes.resolve_get nodes id ▸ Node.resolve_name _
  have kinds := @Nodes.resolve_kindOf nodes id
  have size := @Nodes.resolve_size nodes
  constructor
  · intro names
    exact ⟨Nat.lt_of_lt_of_eq names.inside size, kinds ▸ names.kind, same ▸ names.name⟩
  · intro names
    exact ⟨Nat.lt_of_lt_of_eq names.inside size.symm, kinds ▸ names.kind, same ▸ names.name⟩

theorem declares_iff_names (element : kind ≠ .element) (attr : kind ≠ .attr) :
    nodes.Declares kind name id ↔ nodes.Names kind name id := by
  constructor
  · exact Nodes.Declares.toNames
  · intro names
    refine ⟨names, fun top => ?_⟩
    rw [names.kind] at top
    exact absurd top (not_or.mpr ⟨element, attr⟩)

theorem Loaded.ref_top {schema : Schema} (loaded : schema.Loaded) {id referenced : NodeId} {decl : ElementDecl}
    (construct : (schema.nodes.get id).construct = .element decl) (ref : decl.ref = some (.resolved referenced)) :
    ∃ parent, (schema.nodes.get referenced).parent = some parent ∧ schema.nodes.kindOf parent = .schema := by
  obtain ⟨nodes, same, read⟩ := loaded.read
  rw [same, Nodes.resolve_get] at construct
  have resolved := @Construct.resolve_isResolved (Index.ofNodes nodes).1 _ (unresolved_of_read read id)
  have use : ((nodes.get id).construct.resolve (Index.ofNodes nodes).1).1 = .element decl := construct
  have kind : (nodes.get id).construct.kind = .element := by rw [← resolved.kind, use, Construct.kind]
  obtain ⟨name, found⟩ := resolved.ref referenced (by rw [use, Construct.nodeRef?, ref])
  rw [kind] at found
  obtain ⟨parent, above, schema⟩ :=
    (Index.find?_eq_some_iff.mp found).1.top (Or.inl (Index.find?_eq_some_iff.mp found).1.kind)
  refine ⟨parent, ?_, ?_⟩
  · rw [same, Nodes.resolve_get]
    exact above
  · rw [same, Nodes.resolve_kindOf]
    exact schema

/-- Resolution links every name to the first declaration that it means, or it leaves the name, and it changes nothing
else. For references that are not limited to what stands directly in the schema, that declaration is the one that the
schema finds. Names that are left are counted, and they are those that the schema reports. A second resolution
changes nothing. -/
theorem references_resolved (nodes : Nodes) (root : NodeId) :
    nodes.resolve.nodes.size = nodes.size ∧
      (∀ id, ∃ construct, (ofNodes nodes root).1.node id = { nodes.get id with construct } ∧
        Construct.Relinked nodes.TypeBecomes nodes.RefBecomes (nodes.get id).construct construct) ∧
      (∀ kind name id, kind ≠ .element → kind ≠ .attr →
        ((ofNodes nodes root).1.find? kind name = some id ↔ nodes.DeclaresFirst kind name id)) ∧
      nodes.resolve.unresolved = nodes.resolve.nodes.openRefs ∧
      nodes.resolve.unresolved = (ofNodes nodes root).1.unresolved.length ∧
      nodes.resolve.nodes.resolve.nodes = nodes.resolve.nodes ∧
      nodes.resolve.nodes.resolve.unresolved = nodes.resolve.unresolved := by
  refine ⟨Nodes.resolve_size, ?_, ?_, nodes.resolve_unresolved, ?_, ?_, ?_⟩
  · intro id
    exact ⟨_, Nodes.resolve_get nodes id, Construct.resolve_relinked _⟩
  · intro kind name id element attr
    rw [find?_eq_some_iff]
    simp only [Nodes.DeclaresFirst, declares_iff_names element attr]
    exact iff_of_eq (congrArg (IsLeast · id) (Set.ext fun other => names_iff_resolved))
  · rw [unresolved_length]
    exact nodes.resolve_unresolved
  · rw [Nodes.resolve_again]
  · rw [Nodes.resolve_again]

end Schema

end SchemaClasses
