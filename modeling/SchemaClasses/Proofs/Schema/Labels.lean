import SchemaClasses.Proofs.Document.Trees
import SchemaClasses.Proofs.Schema.Agreement
import SchemaClasses.Proofs.Schema.Bounds
import SchemaClasses.Proofs.Schema.Resolution
import SchemaClasses.Schema.Classes

/-! Namespace labels. Documents that differ only in the labels of names and references and in the declarations
of namespaces give the same schema, if every reference of one of them means something. -/

namespace SchemaClasses

/-- What an attribute says apart from labels. Where it holds references, only their local parts count. -/
def Reading.unlabelled (key value : String) : List String :=
  if key = "memberTypes" then (Text.words value).map Name.localPart
  else if key ∈ referenceKeys then [Name.localPart value]
  else [value]

def Entries.unlabelled (attributes : Entries String) : Entries (List String) :=
  attributes.map fun (key, value) => (key, Reading.unlabelled key value)

namespace Document
open Reading (unlabelled)

def DeclaresNamespace (raw : Xml.RawAttribute) : Prop :=
  ∃ key, Utf8.decodeString raw.key = .ok key ∧ isNamespaceDeclaration key

abbrev Items := List (Except Xml.AttributeFault Xml.RawAttribute)

/-- The attributes of two tags that differ only in namespace declarations and in the labels of references. -/
inductive RelabelledItems : Items → Items → Prop where
  | nil : RelabelledItems [] []
  | same {items others} (item) (rest : RelabelledItems items others) : RelabelledItems (item :: items) (item :: others)
  | reference {items others raw other key value value'} (keys : raw.key = other.key)
    (named : Utf8.decodeString raw.key = .ok key)
      (first : Xml.expand raw.value = .ok value) (second : Xml.expand other.value = .ok value')
      (same : unlabelled (Name.localPart key) value = unlabelled (Name.localPart key) value')
      (rest : RelabelledItems items others) : RelabelledItems (.ok raw :: items) (.ok other :: others)
  | dropped {items others raw} (declares : DeclaresNamespace raw) (rest : RelabelledItems items others) :
      RelabelledItems (.ok raw :: items) others
  | added {items others raw} (declares : DeclaresNamespace raw) (rest : RelabelledItems items others) :
      RelabelledItems items (.ok raw :: others)

structure RelabelledTag (first second : Xml.Tag) : Prop where
  name : ∃ name name', Utf8.decodeString first.name = .ok name ∧ Utf8.decodeString second.name = .ok name' ∧
    Name.localPart name = Name.localPart name'
  attributes : RelabelledItems first.attributes second.attributes

/-- Tokens that differ only in labels and in namespace declarations. -/
inductive RelabelledToken : Xml.Token → Xml.Token → Prop where
  | start {first second} (tags : RelabelledTag first second) : RelabelledToken (.start first) (.start second)
  | empty {first second} (tags : RelabelledTag first second) : RelabelledToken (.empty first) (.empty second)
  | same {token} (plain : tagOf token = none) : RelabelledToken token token

end Document

namespace Entries
variable {attributes : Entries String} {key value : String}

theorem unlabelled_insert :
    (attributes.insert key value).unlabelled = attributes.unlabelled.insert key (Reading.unlabelled key value) := by
  induction attributes with
  | nil => rfl
  | cons first rest ih =>
    obtain ⟨name, stored⟩ := first
    simp only [insert, unlabelled, List.map_cons, alter] at ih ⊢
    split
    · next same => rw [List.map_cons, same]
    · rw [List.map_cons, ih]

theorem get?_unlabelled : attributes.unlabelled.get? key = (attributes.get? key).map (Reading.unlabelled key) := by
  induction attributes with
  | nil => rfl
  | cons first rest ih =>
    obtain ⟨name, stored⟩ := first
    simp only [get?, unlabelled, List.map_cons, List.lookup_cons] at ih ⊢
    split
    · next same =>
      rw [beq_iff_eq.mp same]
      rfl
    · exact ih

/-- Attributes that are the same apart from labels say the same of a construct. -/
theorem saySame_of_unlabelled {others : Entries String} (same : attributes.unlabelled = others.unlabelled) :
    Reading.SaySame Name.localPart attributes others := by
  have each (key : String) :
      (attributes.get? key).map (Reading.unlabelled key) = (others.get? key).map (Reading.unlabelled key) := by
    rw [← get?_unlabelled, same, get?_unlabelled]
  have single {f : String → String} {first second : Option String}
      (same : first.map (fun value => [f value]) = second.map fun value => [f value]) : first.map f = second.map f := by
    have heads := congrArg (Option.map fun values : List String => values.headD "") same
    rwa [Option.map_map, Option.map_map] at heads
  constructor
  · intro key free
    obtain ⟨members, plain⟩ := not_or.mp (List.mem_cons.not.mp free)
    have whole : Reading.unlabelled key = fun value => [id value] := by
      funext value
      rw [Reading.unlabelled, if_neg members, if_neg plain, id]
    have same := each key
    rw [whole] at same
    simpa only [Option.map_id, id] using single same
  · intro key reference
    have members : key ≠ "memberTypes" := by
      rintro rfl
      revert reference
      decide
    have local' : Reading.unlabelled key = fun value => [Name.localPart value] := by
      funext value
      rw [Reading.unlabelled, if_neg members, if_pos reference]
    have same := each key
    rw [local'] at same
    exact single same
  · have same := each "memberTypes"
    exact same

end Entries

namespace Document
open Reading (unlabelled)

section Attributes
variable {attributes others later : Entries String} {items counterparts : Items}

theorem addAttribute_declares {raw : Xml.RawAttribute} (declares : DeclaresNamespace raw) :
    addAttribute attributes (.ok raw) = .ok attributes := by
  obtain ⟨key, named, declared⟩ := declares
  rw [addAttribute_eq named, if_pos declared]

/-- The same attribute, or one with other labels, is added to attributes that are the same apart from labels. -/
theorem addAttribute_relabelled {raw other : Xml.RawAttribute} {key : String}
    (alike : attributes.unlabelled = others.unlabelled)
    (named : Utf8.decodeString raw.key = .ok key) (keys : raw.key = other.key)
    (values : ∀ value, Xml.expand raw.value = .ok value →
      ∃ value', Xml.expand other.value = .ok value' ∧ unlabelled (Name.localPart key) value = unlabelled
      (Name.localPart key) value')
    (added : addAttribute attributes (.ok raw) = .ok later) :
    ∃ final, addAttribute others (.ok other) = .ok final ∧ later.unlabelled = final.unlabelled := by
  rw [addAttribute_eq named] at added
  rw [addAttribute_eq (keys ▸ named)]
  split at added
  · next declares =>
    rw [if_pos declares]
    obtain rfl := Except.ok.inj added
    exact ⟨others, rfl, alike⟩
  · next plain =>
    obtain ⟨value, expanded, stored⟩ := Except.ok_of_bind added
    obtain rfl := Except.ok.inj stored
    obtain ⟨value', second, same⟩ := values value (Except.ok_of_mapError expanded)
    rw [if_neg plain, second]
    refine ⟨_, rfl, ?_⟩
    rw [Entries.unlabelled_insert, Entries.unlabelled_insert, alike, same]

theorem addAttributes_relabelled (relabelled : RelabelledItems items counterparts)
    (alike : attributes.unlabelled = others.unlabelled)
    (added : items.foldlM addAttribute attributes = .ok later) :
    ∃ final, counterparts.foldlM addAttribute others = .ok final ∧ later.unlabelled = final.unlabelled := by
  induction relabelled generalizing attributes others with
  | nil =>
    obtain rfl := Except.ok.inj added
    exact ⟨others, rfl, alike⟩
  | same item _ ih =>
    obtain ⟨middle, first, rest⟩ := Except.ok_of_bind added
    obtain ⟨raw, given, keyed⟩ := Except.ok_of_bind first
    obtain ⟨key, named, _⟩ := Except.ok_of_bind keyed
    obtain rfl := Except.ok_of_mapError given
    obtain ⟨middle', first', same⟩ := addAttribute_relabelled alike (Except.ok_of_mapError named) rfl
      (fun value read => ⟨value, read, rfl⟩) first
    rw [List.foldlM_cons, first']
    exact ih same rest
  | reference keys named first second same _ ih =>
    obtain ⟨middle, one, rest⟩ := Except.ok_of_bind added
    obtain ⟨middle', other, alike⟩ := addAttribute_relabelled alike named keys
      (fun value read => ⟨_, second, by rwa [← Except.ok.inj (first.symm.trans read)]⟩) one
    rw [List.foldlM_cons, other]
    exact ih alike rest
  | dropped declares _ ih =>
    rw [List.foldlM_cons, addAttribute_declares declares] at added
    exact ih alike added
  | added declares _ ih =>
    rw [List.foldlM_cons, addAttribute_declares declares]
    exact ih alike added

end Attributes
end Document

def Element.unlabelled (element : Element) : Element × Entries (List String) :=
  ({ element with attributes := [] }, element.attributes.unlabelled)

theorem Element.unlabelled_change {change : Element → Element}
    (blind : ∀ element attributes, change { element with attributes } = { change element with attributes })
    {element counterpart : Element} (same : element.unlabelled = counterpart.unlabelled) :
    (change element).unlabelled = (change counterpart).unlabelled := by
  obtain ⟨plain, attributes⟩ := Prod.mk.inj same
  have keeps (element : Element) : (change element).attributes = element.attributes := by
    have own := congrArg Element.attributes (blind element element.attributes)
    exact own
  unfold unlabelled
  rw [← blind, ← blind, plain, keeps, keeps, attributes]

namespace Document

/-- Documents whose elements are the same apart from labels. -/
structure Alike (first second : Document) : Prop where
  elements : first.elements.map Element.unlabelled = second.elements.map Element.unlabelled
  root : first.root = second.root

namespace Alike
variable {first second : Document} (alike : first.Alike second)
include alike

theorem size : first.size = second.size := by
  simpa [Document.size] using congrArg Array.size alike.elements

theorem element (index : Nat) :
    (first.elements.getD index default).unlabelled = (second.elements.getD index default).unlabelled := by
  have seen (document : Document) : (document.elements.getD index default).unlabelled =
      (document.elements.map Element.unlabelled).getD index (default : Element).unlabelled := by
    simp only [Array.getD_eq_getD_getElem?, Array.getElem?_map]
    cases document.elements[index]? <;> rfl
  rw [seen, seen, alike.elements]

theorem modify (index : Nat) {change : Element → Element}
    (blind : ∀ element attributes, change { element with attributes } = { change element with attributes }) :
    (first.modify index change).Alike (second.modify index change) where
  elements := map_modify_congr alike.elements (fun _ _ => Element.unlabelled_change blind) index
  root := alike.root

theorem appendText (index : Nat) (text : String) : (first.appendText index text).Alike
    (second.appendText index text) := by
  unfold Document.appendText
  split
  · exact alike
  · exact alike.modify index fun _ _ => rfl

theorem add {parent : Option Nat} {name : String} {attributes others : Entries String} {index : Nat} {later : Document}
    (same : attributes.unlabelled = others.unlabelled) (added : first.add parent name attributes = .ok (index, later)) :
    ∃ final, second.add parent name others = .ok (index, final) ∧ later.Alike final := by
  have pushed : Alike { first with elements := first.elements.push { name, attributes, parent } }
      { second with elements := second.elements.push { name, attributes := others, parent } } := by
    refine ⟨?_, alike.root⟩
    rw [Array.map_push, Array.map_push, alike.elements, Element.unlabelled, Element.unlabelled, same]
  unfold Document.add at added ⊢
  rw [← alike.size]
  cases parent with
  | some parent =>
    cases added
    exact ⟨_, rfl, pushed.modify parent fun _ _ => rfl⟩
  | none =>
    rw [← alike.root]
    cases root : first.root with
    | some _ =>
      rw [root] at added
      cases added
    | none =>
      rw [root] at added
      cases added
      exact ⟨_, rfl, pushed.elements, rfl⟩

theorem addTag {limits : Limits} {opened : List Nat} {tag counterpart : Xml.Tag} {index : Nat} {later : Document}
    (tags : RelabelledTag tag counterpart) (added : first.addTag limits opened tag = .ok (index, later)) :
    ∃ final, second.addTag limits opened counterpart = .ok (index, final) ∧ later.Alike final := by
  obtain ⟨name, name', first', second', locals⟩ := tags.name
  obtain ⟨_, deep, named⟩ := Except.ok_of_bind added
  obtain ⟨name'', decoded, stated⟩ := Except.ok_of_bind named
  obtain rfl := Except.ok.inj (first'.symm.trans (Except.ok_of_mapError decoded))
  obtain ⟨attributes, read, counted⟩ := Except.ok_of_bind stated
  obtain ⟨_, few, grown⟩ := Except.ok_of_bind counted
  obtain ⟨others, read', same⟩ := addAttributes_relabelled tags.attributes rfl (Except.ok_of_mapError read)
  obtain ⟨final, grown', alike⟩ := alike.add same grown
  refine ⟨final, ?_, alike⟩
  have length : others.length = attributes.length := by
    simpa [Entries.unlabelled] using congrArg List.length same.symm
  unfold Document.addTag
  rw [deep, second', read']
  change (limits.check .attributes others.length >>= fun _ => second.add opened.head? (Name.localPart name') others) = _
  rw [length, few, ← locals]
  exact grown'

theorem readToken {limits : Limits} {opened inner : List Nat} {token counterpart : Xml.Token} {later : Document}
    (relabelled : RelabelledToken token counterpart) (read : first.readToken limits opened token = .ok (later, inner)) :
    ∃ final, second.readToken limits opened counterpart = .ok (final, inner) ∧ later.Alike final := by
  cases relabelled with
  | start tags =>
    obtain ⟨⟨index, later⟩, added, rest⟩ := Except.ok_of_bind read
    cases rest
    obtain ⟨final, added', alike⟩ := alike.addTag tags added
    refine ⟨final, ?_, alike⟩
    rw [Document.readToken, added']
    rfl
  | empty tags =>
    obtain ⟨⟨index, later⟩, added, rest⟩ := Except.ok_of_bind read
    cases rest
    obtain ⟨final, added', alike⟩ := alike.addTag tags added
    refine ⟨final, ?_, alike⟩
    rw [Document.readToken, added']
    rfl
  | same plain =>
    cases token with
    | start tag | empty tag => cases plain
    | close =>
      cases read
      exact ⟨second, rfl, alike⟩
    | text raw =>
      cases opened with
      | nil =>
        cases read
        exact ⟨second, rfl, alike⟩
      | cons index opened =>
        obtain ⟨text, expanded, rest⟩ := Except.ok_of_bind read
        cases rest
        refine ⟨second.appendText index text, ?_, alike.appendText index text⟩
        rw [Document.readToken, expanded]
        rfl
    | cdata raw =>
      cases opened with
      | nil =>
        cases read
        exact ⟨second, rfl, alike⟩
      | cons index opened =>
        cases read
        exact ⟨_, rfl, alike.appendText index _⟩
    | fault offset fault => cases read

theorem readTokens {limits : Limits} {opened : List Nat} {tokens counterparts : List Xml.Token} {later : Document}
    (relabelled : List.Forall₂ RelabelledToken tokens counterparts)
    (read : first.readTokens limits opened tokens = .ok later) :
    ∃ final, second.readTokens limits opened counterparts = .ok final ∧ later.Alike final := by
  induction relabelled generalizing first second opened with
  | nil =>
    unfold Document.readTokens at read ⊢
    split at read
    · next closed =>
      cases read
      exact ⟨second, if_pos closed, alike⟩
    · cases read
  | cons token _ ih =>
    rw [readTokens_cons] at read
    obtain ⟨⟨middle, inner⟩, one, rest⟩ := Except.ok_of_bind read
    obtain ⟨final, other, alike⟩ := alike.readToken token one
    rw [readTokens_cons, other]
    exact ih alike rest

/-- Trees of the same elements apart from labels. -/
abbrev SameTrees : Tree → Tree → Prop :=
  Tree.Matches fun attributes others => attributes.unlabelled = others.unlabelled

theorem treesBackward (count place : Nat) :
    Option.Rel SameTrees (first.treesBackward count)[place]? (second.treesBackward count)[place]? := by
  induction count generalizing place with
  | zero => exact .none
  | succ count ih =>
    rw [Document.treesBackward, Document.treesBackward, Array.getElem?_push, Array.getElem?_push, treesBackward_size,
      treesBackward_size, ← alike.size]
    split
    · obtain ⟨plain, attributes⟩ := Prod.mk.inj (alike.element (first.size - (count + 1)))
      obtain ⟨name, _, text, children, _⟩ := Element.mk.inj plain
      refine .some (.node name text attributes ?_)
      rw [← children]
      generalize (first.elements.getD (first.size - (count + 1)) default).children.toList = ids
      induction ids with
      | nil => exact .nil
      | cons id ids rest =>
        have tree := ih (first.size - 1 - id)
        rw [List.filterMap_cons, List.filterMap_cons]
        generalize (first.treesBackward count)[first.size - 1 - id]? = found,
          (second.treesBackward count)[first.size - 1 - id]? = other at tree
        cases tree with
        | none => exact rest
        | some same => exact .both same rest
    · exact ih place

theorem tree? : Option.Rel SameTrees first.tree? second.tree? := by
  unfold Document.tree?
  rw [← alike.root]
  cases first.root with
  | none => exact .none
  | some root =>
    change Option.Rel _ (first.treeAt? root) (second.treeAt? root)
    unfold Document.treeAt?
    rw [← alike.size]
    split
    · exact alike.treesBackward _ _
    · exact .none

end Alike
end Document

def Name.bare (name : String) : String :=
  ":" ++ localPart name

theorem Name.localPart_bare (name : String) : localPart (bare name) = localPart name := by
  have chars : (bare name).toList = ':' :: (localPart name).toList := String.toList_append
  have cut : (splitChars (bare name).toList).2 = (localPart name).toList := by
    rw [chars, splitChars, if_pos rfl]
  change String.ofList (splitChars (bare name).toList).2 = _
  rw [cut, String.ofList_toList]

theorem Nodes.rename_rename (f g : String → String) (nodes : Nodes) : (nodes.rename f).rename g = nodes.rename
    (g ∘ f) := by
  have type : TypeRef.rename g ∘ TypeRef.rename f = TypeRef.rename (g ∘ f) := by
    funext ref
    cases ref <;> rfl
  have node : NodeRef.rename g ∘ NodeRef.rename f = NodeRef.rename (g ∘ f) := by
    funext ref
    cases ref <;> rfl
  have own : Node.rename g ∘ Node.rename f = Node.rename (g ∘ f) := by
    funext own
    simp only [Function.comp_apply, Node.rename, Construct.rename, Construct.mapRefs_mapRefs, type, node]
  rw [rename, rename, rename, Array.map_map, own]

section Resolution
variable {index : Index} {nodes : Nodes}

theorem Index.type_congr {name other : String} (same : Name.localPart name = Name.localPart other)
    (known : (index.type name).isResolved) : index.type other = index.type name := by
  have builtin : Builtin.ofName? other = Builtin.ofName? name := by rw [Builtin.ofName?, Builtin.ofName?, same]
  have found (kind : Kind) : index.find? kind other = index.find? kind name := by rw [find?, find?, same]
  unfold Index.type at known ⊢
  rw [builtin, found, found]
  generalize Builtin.ofName? name = builtin, index.find? .simpleType name = simple, index.find? .complexType name =
    complex at known ⊢
  rcases builtin with _ | type
  · rcases simple with _ | id
    · rcases complex with _ | id
      · cases known
      · rfl
    · rfl
  · rfl

theorem TypeRef.resolve_bare {ref : TypeRef}
    (known : (ref.resolve index).1.isResolved ∨ ((ref.rename Name.bare).resolve index).1.isResolved) :
    ((ref.rename Name.bare).resolve index).1 = (ref.resolve index).1 := by
  cases ref with
  | named name =>
    simp only [rename, resolve] at known ⊢
    rcases known with known | known
    · exact Index.type_congr (Name.localPart_bare name).symm known
    · exact (Index.type_congr (Name.localPart_bare name) known).symm
  | builtin | simple | complex => rfl

def NodeRef.isResolved : NodeRef → Bool
  | named _ => false
  | resolved _ => true

theorem NodeRef.resolve_bare {kind : Kind} {ref : NodeRef}
    (known : (ref.resolve index kind).1.isResolved ∨ ((ref.rename Name.bare).resolve index kind).1.isResolved) :
    ((ref.rename Name.bare).resolve index kind).1 = (ref.resolve index kind).1 := by
  cases ref with
  | named name =>
    have found : index.find? kind (Name.bare name) = index.find? kind name := by
      rw [Index.find?, Index.find?, Name.localPart_bare]
    simp only [rename, resolve, found] at known ⊢
    cases declared : index.find? kind name with
    | some id => rfl
    | none =>
      rw [declared] at known
      rcases known with known | known <;> cases known
  | resolved => rfl

namespace Construct
variable {construct : Construct}

/-- A construct whose references all mean something. -/
def Settled (construct : Construct) : Prop :=
  (∀ ref ∈ construct.typeRefs, ref.isResolved) ∧ ∀ ref, construct.nodeRef? = some ref → ref.isResolved

theorem resolve_eq : (construct.resolve index).1 =
    construct.mapRefs (fun ref => (ref.resolve index).1) fun ref => (ref.resolve index construct.kind).1 := by
  have option {α : Type} (resolve : α → α × List Notice) (ref : Option α) :
      (resolveOption resolve ref).1 = ref.map fun ref => (resolve ref).1 := by cases ref <;> rfl
  cases construct with
  | union => simp only [resolve, mapRefs, List.map_map, Function.comp_def]
  | _ => simp only [resolve, mapRefs, option]

theorem resolve_bare (known : (construct.resolve index).1.Settled ∨
      ((construct.rename Name.bare).resolve index).1.Settled) :
    ((construct.rename Name.bare).resolve index).1 = (construct.resolve index).1 := by
  rw [resolve_eq, resolve_eq, rename] at known
  rw [resolve_eq, resolve_eq, rename, kind_mapRefs, mapRefs_mapRefs]
  rw [kind_mapRefs, mapRefs_mapRefs] at known
  simp only [Settled, typeRefs_mapRefs, nodeRef_mapRefs, List.forall_mem_map] at known
  refine mapRefs_congr (fun ref member => ?_) fun ref refers => ?_
  · exact TypeRef.resolve_bare (known.imp (fun known => known.1 ref member) fun known => known.1 ref member)
  · refine NodeRef.resolve_bare (known.imp (fun known => known.2 _ ?_) fun known => known.2 _ ?_) <;> rw [refers] <;>
      rfl

end Construct

theorem Nodes.resolve_bare (known : (∀ node ∈ nodes.resolve.nodes, node.construct.Settled) ∨
      ∀ node ∈ (nodes.rename Name.bare).resolve.nodes, node.construct.Settled) :
    (nodes.rename Name.bare).resolve.nodes = nodes.resolve.nodes := by
  have index : Index.ofNodes (nodes.rename Name.bare) = Index.ofNodes nodes :=
    Index.ofNodes_map (fun node => Construct.kind_mapRefs) (fun node => Construct.name_mapRefs) fun _ => rfl
  rw [resolve_nodes, resolve_nodes, index, rename, Array.map_map] at known ⊢
  refine Array.map_congr_left fun node member => ?_
  have each := Construct.resolve_bare
    (known.imp (fun known => known _ (Array.mem_map_of_mem member)) fun known => known _ (Array.mem_map_of_mem member))
  exact congrArg (fun construct => { node with construct }) each

end Resolution

namespace Schema
variable {schema : Schema}

theorem settled_of_unresolved (known : schema.unresolved = []) : ∀ node ∈ schema.nodes, node.construct.Settled := by
  intro node member
  obtain ⟨types, refs⟩ := List.append_eq_nil_iff.mp known
  have inside := Array.mem_toList_iff.mpr member
  have type := List.flatMap_eq_nil_iff.mp types node inside
  have ref := List.filterMap_eq_nil_iff.mp refs node inside
  constructor
  · intro found listed
    have meant := List.filterMap_eq_nil_iff.mp type found listed
    cases found with
    | named name => cases meant
    | builtin | simple | complex => rfl
  · intro found refers
    rw [unresolvedRef?, refers] at ref
    cases found with
    | named name => cases ref
    | resolved id => rfl

/-- Nodes that differ in labels only are resolved to the same nodes, if all names in some of them mean something. -/
theorem resolve_relabelled {nodes others : Nodes} (alike : nodes.rename Name.localPart = others.rename Name.localPart)
    (settled : ∀ node ∈ nodes.resolve.nodes, node.construct.Settled) : others.resolve.nodes = nodes.resolve.nodes := by
  have same : nodes.rename Name.bare = others.rename Name.bare := by
    have behind := congrArg (Nodes.rename (":" ++ ·)) alike
    rwa [Nodes.rename_rename, Nodes.rename_rename] at behind
  have first := Nodes.resolve_bare (Or.inl settled)
  have second : (others.rename Name.bare).resolve.nodes = others.resolve.nodes := by
    refine Nodes.resolve_bare (Or.inr fun node member => settled node ?_)
    rwa [← first, same]
  rw [← second, ← same, first]

theorem load_relabelled {limits : Limits} {source copy : Document} {links others : Reading.Links}
    (same : Option.Rel Document.Alike.SameTrees source.tree? copy.tree?)
    (loaded : (load limits source links).result = .ok schema)
    (known : schema.unresolved = []) : (load limits copy others).result = .ok schema := by
  obtain ⟨outcome, alike⟩ := Reading.document_agree (fun _ _ => Entries.saySame_of_unlabelled) limits same
    { links } { links := others } ⟨rfl, rfl⟩
  unfold load at loaded ⊢
  rcases first : (Reading.document limits source).run { links } with ⟨failed | root, state⟩
  · rw [first] at loaded
    cases loaded
  · rcases second : (Reading.document limits copy).run { links := others } with ⟨failed | root', state'⟩ <;>
      rw [first, second] at outcome alike
    · cases outcome
    · obtain rfl : root = root' := Except.ok.inj outcome
      rw [first] at loaded
      obtain rfl := Except.ok.inj loaded
      have nodes : state'.nodes.resolve.nodes = state.nodes.resolve.nodes :=
        resolve_relabelled alike.nodes (settled_of_unresolved known)
      change Except.ok (ofNodes state'.nodes root).1 = Except.ok (ofNodes state.nodes root).1
      rw [ofNodes, ofNodes, nodes]

/-- A document of a schema whose references all mean something can be written with other labels, or none, and
with other namespace declarations. It is still read as the same schema, unless it has become longer than
allowed, and so it has the same classes. -/
theorem labels_irrelevant {limits : Limits} {first second : List UInt8}
    (relabelled : List.Forall₂ Document.RelabelledToken (Xml.tokens first) (Xml.tokens second))
    (loaded : (ofBytes limits first).result = .ok schema) (known : schema.unresolved = []) :
    (∃ document, ({} : Document).readTokens limits [] (Xml.tokens second) = .ok document ∧
        (ofDocument limits document).result = .ok schema) ∧
      (second.length ≤ limits.size → (ofBytes limits second).result = .ok schema) ∧
      ∀ other, (ofBytes limits second).result = .ok other →
        other.classBuilders.run other.derivation = schema.classBuilders.run schema.derivation := by
  rw [result_ofBytes] at loaded
  obtain ⟨source, read, loaded⟩ := Except.ok_of_bind loaded
  obtain ⟨_, _, tokens⟩ := Except.ok_of_bind read
  obtain ⟨copy, read', alike⟩ := Document.Alike.readTokens ⟨rfl, rfl⟩ relabelled tokens
  have again : (ofDocument limits copy).result = .ok schema := load_relabelled alike.tree? loaded known
  have whole : (ofBytes limits second).result = limits.check .size second.length >>= fun _ => .ok schema := by
    rw [result_ofBytes, Document.read, read']
    cases limits.check .size second.length with
    | error error => rfl
    | ok _ => exact again
  refine ⟨⟨copy, read', again⟩, fun short => ?_, fun other loaded => ?_⟩
  · have fits : limits.check .size second.length = .ok () := if_neg (Nat.not_lt.mpr short)
    rw [whole, fits]
    rfl
  · rw [whole] at loaded
    obtain ⟨_, _, same⟩ := Except.ok_of_bind loaded
    obtain rfl := Except.ok.inj same
    rfl

/-- An element of a built-in type. -/
def labelled : List UInt8 :=
  Xml.ascii "<s:schema xmlns:s='u'><s:element name='a' type='s:int'/></s:schema>"

/-- The same with other labels and another declaration of a namespace. -/
def relabelled : List UInt8 :=
  Xml.ascii "<schema><element name='a' xmlns:x='u' type='x:int'/></schema>"

theorem labelled_relabelled : List.Forall₂ Document.RelabelledToken (Xml.tokens labelled) (Xml.tokens relabelled) := by
  have tokens : Xml.tokens labelled =
      [.start ⟨Xml.ascii "s:schema xmlns:s='u'"⟩, .empty ⟨Xml.ascii "s:element name='a' type='s:int'"⟩, .close] :=
        by cbv
  have tokens' : Xml.tokens relabelled =
      [.start ⟨Xml.ascii "schema"⟩, .empty ⟨Xml.ascii "element name='a' xmlns:x='u' type='x:int'"⟩, .close] := by cbv
  have schema : Xml.Tag.attributes ⟨Xml.ascii "s:schema xmlns:s='u'"⟩ = [.ok ⟨Xml.ascii "xmlns:s", Xml.ascii "u"⟩] :=
    by cbv
  have schema' : Xml.Tag.attributes ⟨Xml.ascii "schema"⟩ = [] := by cbv
  have element : Xml.Tag.attributes ⟨Xml.ascii "s:element name='a' type='s:int'"⟩ =
      [.ok ⟨Xml.ascii "name", Xml.ascii "a"⟩, .ok ⟨Xml.ascii "type", Xml.ascii "s:int"⟩] := by cbv
  have element' : Xml.Tag.attributes ⟨Xml.ascii "element name='a' xmlns:x='u' type='x:int'"⟩ =
      [.ok ⟨Xml.ascii "name", Xml.ascii "a"⟩, .ok ⟨Xml.ascii "xmlns:x", Xml.ascii "u"⟩,
        .ok ⟨Xml.ascii "type", Xml.ascii "x:int"⟩] := by cbv
  have key : Utf8.decodeString (Xml.ascii "type") = .ok "type" := by cbv
  have value : Xml.expand (Xml.ascii "s:int") = .ok "s:int" := by cbv
  have value' : Xml.expand (Xml.ascii "x:int") = .ok "x:int" := by cbv
  rw [tokens, tokens']
  refine .cons (.start ⟨⟨"s:schema", "schema", by cbv, by cbv, by decide⟩, ?_⟩)
    (.cons (.empty ⟨⟨"s:element", "element", by cbv, by cbv, by decide⟩, ?_⟩) (.cons (.same rfl) .nil))
  · rw [schema, schema']
    exact .dropped ⟨"xmlns:s", by cbv, by decide⟩ .nil
  · rw [element, element']
    exact .same _ (.added ⟨"xmlns:x", by cbv, by decide⟩ (.reference rfl key value value' (by decide) .nil))

theorem labelled_labels_irrelevant : ∃ schema,
    List.Forall₂ Document.RelabelledToken (Xml.tokens labelled) (Xml.tokens relabelled) ∧
    (ofBytes {} labelled).result = .ok schema ∧ schema.unresolved = [] ∧
      (∃ document, ({} : Document).readTokens {} [] (Xml.tokens relabelled) = .ok document ∧
          (ofDocument {} document).result = .ok schema) ∧
        (relabelled.length ≤ Limits.standard.size → (ofBytes {} relabelled).result = .ok schema) ∧
        ∀ other, (ofBytes {} relabelled).result = .ok other →
          other.classBuilders.run other.derivation = schema.classBuilders.run schema.derivation := by
  have accepted : (ofBytes {} labelled).result.toOption.map unresolved = some [] := by decide +kernel
  rcases outcome : (ofBytes {} labelled).result with error | schema
  · rw [outcome] at accepted
    cases accepted
  · rw [outcome] at accepted
    have known : schema.unresolved = [] := Option.some.inj accepted
    exact ⟨schema, labelled_relabelled, rfl, known, labels_irrelevant labelled_relabelled outcome known⟩

end Schema
end SchemaClasses
