import Mathlib
import SchemaClasses.Proofs.Document.Bounds
import SchemaClasses.Proofs.Document.Trees
import SchemaClasses.Proofs.Grouping

/-! Documents as they are written. The tokens of a tree are read into its elements, numbered parents before children. -/

namespace SchemaClasses.Document

/-- What stands inside an element, in order. Names have their labels, and texts may be blank. -/
inductive Content where
  | done
  | text (text : String) (rest : Content)
  | cdata (text : String) (rest : Content)
  | comment (rest : Content)
  | element (name : String) (attributes : List (String × String)) (inside rest : Content)

/-- The attributes that declare no namespace, under their local names. -/
def plain (attributes : List (String × String)) : List (String × String) :=
  (attributes.filter fun pair => !isNamespaceDeclaration pair.1).map fun pair => (Name.localPart pair.1, pair.2)

/-- The attributes by local name. Each name has its first place and its last value. -/
def byLocalName (attributes : List (String × String)) : Entries String :=
  ((plain attributes).map Prod.fst).eraseDups.map fun name => (name, ((plain attributes).reverse.lookup name).getD "")

namespace Content

def count : Content → Nat
  | done => 0
  | text _ rest | cdata _ rest | comment rest => rest.count
  | element _ _ inside rest => 1 + inside.count + rest.count

/-- The texts that are not blank and stand in no element further in. -/
def texts : Content → List String
  | done => []
  | text value rest | cdata value rest => if Text.isBlankText value then rest.texts else value :: rest.texts
  | comment rest | element _ _ _ rest => rest.texts

def text? (content : Content) : Option String :=
  if content.texts.isEmpty then none else some (String.join content.texts)

/-- The numbers of the outermost elements, if the first element has the number `next`. -/
def children (next : Nat) : Content → List Nat
  | done => []
  | text _ rest | cdata _ rest | comment rest => rest.children next
  | element _ _ inside rest => next :: rest.children (next + 1 + inside.count)

/-- The elements, parents before children, if the first has the number `next` and the outermost stand in `parent`. -/
def elements (parent : Option Nat) (next : Nat) : Content → List Element
  | done => []
  | text _ rest | cdata _ rest | comment rest => rest.elements parent next
  | element name attributes inside rest =>
    { name := Name.localPart name
      attributes := byLocalName attributes
      text := inside.text?
      children := (inside.children (next + 1)).toArray
      parent } ::
    (inside.elements (some next) (next + 1) ++ rest.elements parent (next + 1 + inside.count))

/-- Whether the limits allow the elements, the outermost of them in some depth. -/
def Within (limits : Limits) (depth : Nat) : Content → Prop
  | done => True
  | text _ rest | cdata _ rest | comment rest => rest.Within limits depth
  | element _ attributes inside rest =>
    depth ≤ limits.depth ∧ (byLocalName attributes).length ≤ limits.attributes ∧ inside.Within limits (depth + 1) ∧
    rest.Within limits depth

def document (tree : Content) : Document :=
  { elements := (tree.elements none 0).toArray, root := some 0 }

end Content

/-- An attribute as it is written. The value of one that declares a namespace is not looked at. -/
def Writes (item : Except Xml.AttributeFault Xml.RawAttribute) (pair : String × String) : Prop :=
  ∃ raw, item = .ok raw ∧ Utf8.decodeString raw.key = .ok pair.1 ∧
    (isNamespaceDeclaration pair.1 = false → Xml.expand raw.value = .ok pair.2)

structure WritesTag (tag : Xml.Tag) (name : String) (attributes : List (String × String)) : Prop where
  name : Utf8.decodeString tag.name = .ok name
  attributes : List.Forall₂ Writes tag.attributes attributes

/-- The tokens of what stands inside an element. Comments leave none, and an element without content may have an
empty tag. -/
inductive Spells : List Xml.Token → Content → Prop where
  | done : Spells [] .done
  | text {raw text tokens rest} (expands : Xml.expand raw = .ok text) (further : Spells tokens rest) :
      Spells (.text raw :: tokens) (.text text rest)
  | cdata {raw text tokens rest} (decodes : Utf8.decodeLossy raw = text) (further : Spells tokens rest) :
      Spells (.cdata raw :: tokens) (.cdata text rest)
  | comment {tokens rest} (further : Spells tokens rest) : Spells tokens (.comment rest)
  | empty {tag name attributes tokens rest} (tagged : WritesTag tag name attributes) (further : Spells tokens rest) :
      Spells (.empty tag :: tokens) (.element name attributes .done rest)
  | element {tag name attributes inner inside tokens rest} (tagged : WritesTag tag name attributes)
      (within : Spells inner inside)
      (further : Spells tokens rest) : Spells (.start tag :: (inner ++ .close :: tokens))
        (.element name attributes inside rest)

section Attributes
variable {item : Except Xml.AttributeFault Xml.RawAttribute} {items : List (Except Xml.AttributeFault Xml.RawAttribute)}
  {attributes : List (String × String)} {stored : Entries String}

theorem addAttributes_written (writes : List.Forall₂ Writes items attributes) :
    items.foldlM addAttribute stored =
      .ok ((plain attributes).foldl (fun entries pair => entries.insert pair.1 pair.2) stored) := by
  induction writes generalizing stored with
  | nil => rfl
  | @cons item pair items attributes written _ ih =>
    obtain ⟨raw, rfl, named, stated⟩ := written
    rw [List.foldlM_cons, addAttribute_eq named]
    cases declares : isNamespaceDeclaration pair.1 with
    | true =>
      rw [plain, List.filter_cons_of_neg (by simp [declares])]
      exact ih
    | false =>
      rw [plain, List.filter_cons_of_pos (by simp [declares]), stated declares]
      exact ih

theorem addAttributes_byLocalName (writes : List.Forall₂ Writes items attributes) :
    items.foldlM addAttribute [] = .ok (byLocalName attributes) := by
  rw [addAttributes_written writes]
  exact congrArg Except.ok (Entries.ofList_eq _)

end Attributes

def absorb (texts : List String) (children : List Nat) (element : Element) : Element :=
  { element with
    text := texts.foldl (fun old text => some (old.getD "" ++ text)) element.text
    children := element.children ++ children.toArray }

theorem foldl_text (old : String) (texts : List String) :
    texts.foldl (fun old text => some (old.getD "" ++ text)) (some old) = some (old ++ String.join texts) := by
  induction texts generalizing old with
  | nil => rw [List.foldl_nil, String.join_nil, String.append_empty]
  | cons text texts ih => rw [List.foldl_cons, ih, Option.getD_some, String.join_cons, String.append_assoc]

theorem absorb_content {name : String} {attributes : Entries String} {parent : Option Nat} (content : Content)
    (children : List Nat) :
    absorb content.texts children { name, attributes, parent } =
      { name, attributes, text := content.text?, children := children.toArray, parent } := by
  have said : content.texts.foldl (fun old text => some (old.getD "" ++ text)) none = content.text? := by
    rw [Content.text?]
    cases content.texts with
    | nil => rfl
    | cons text texts =>
      rw [List.foldl_cons, foldl_text, String.join_cons]
      simp
  rw [absorb, said]
  simp

/-- A document in which an element has further texts and children, and with further elements. -/
def graft (document : Document) (index : Nat) (texts : List String) (children : List Nat)
    (further : List Element) : Document :=
  { document with elements := (document.elements.toList.modify index (absorb texts children) ++ further).toArray }

section Graft
variable {document : Document} {index : Nat} {texts later : List String} {children behind : List Nat}
  {further others : List Element}

theorem size_graft : (document.graft index texts children further).size = document.size + further.length := by
  simp [graft, size]

theorem graft_nothing : document.graft index [] [] [] = document := by
  have same : absorb [] [] = id := by
    funext element
    simp [absorb]
  rw [graft, same, List.modify_id, List.append_nil, Array.toArray_toList]

private theorem modify_front {α : Type} {front back : List α} {place : Nat} {change : α → α}
    (inside : place < front.length) :
    (front ++ back).modify place change = front.modify place change ++ back := by
  induction front generalizing place with
  | nil => exact absurd inside (Nat.not_lt_zero _)
  | cons first front ih =>
    cases place with
    | zero => rfl
    | succ place => exact congrArg (first :: ·) (ih (Nat.lt_of_succ_lt_succ inside))

private theorem modify_middle {α : Type} (front : List α) {middle : α} {back : List α} {change : α → α} :
    (front ++ middle :: back).modify front.length change = front ++ change middle :: back := by
  induction front with
  | nil => rfl
  | cons first front ih => exact congrArg (first :: ·) ih

theorem graft_graft (inside : index < document.size) :
    (document.graft index texts children further).graft index later behind others =
      document.graft index (texts ++ later) (children ++ behind) (further ++ others) := by
  have twice : absorb later behind ∘ absorb texts children = absorb (texts ++ later) (children ++ behind) := by
    funext element
    simp [absorb]
  simp only [graft]
  rw [modify_front (by simpa [size] using inside), List.modify_modify_eq, twice, List.append_assoc]

theorem graft_last {element : Element} :
    (document.graft index texts children [element]).graft document.size later behind others =
    document.graft index texts children (absorb later behind element :: others) := by
  have last : document.size = (document.elements.toList.modify index (absorb texts children)).length := by simp [size]
  simp only [graft]
  rw [last, modify_middle, List.append_assoc]
  rfl

theorem appendText_eq (text : String) :
    document.appendText index text = document.graft index (if Text.isBlankText text then [] else [text]) [] [] := by
  rw [appendText]
  split
  · exact graft_nothing.symm
  · have same : absorb [text] [] = fun element => { element with text := some (element.text.getD "" ++ text) } := by
      funext element
      simp [absorb]
    simp [graft, modify, same, ← Array.toList_modify]

theorem add_eq {name : String} {attributes : Entries String} (inside : index < document.size) :
    document.add (some index) name attributes =
      .ok (document.size, document.graft index [] [document.size] [{ name, attributes, parent := some index }]) := by
  have same : absorb [] [document.size] = fun element =>
      { element with children := element.children.push document.size } := by
    funext element
    simp [absorb]
  have grown (element : Element) : (document.elements.push element).modify index (absorb [] [document.size]) =
      (document.elements.toList.modify index (absorb [] [document.size]) ++ [element]).toArray := by
    rw [← Array.toList_inj, Array.toList_modify, Array.toList_push, modify_front (by simpa [size] using inside)]
  rw [graft, ← grown, same]
  rfl

end Graft

theorem Content.length_elements (content : Content) (parent : Option Nat) (next : Nat) :
    (content.elements parent next).length = content.count := by
  induction content generalizing parent next with
  | done => rfl
  | text _ _ ih | cdata _ _ ih | comment _ ih => exact ih parent next
  | element name attributes inside rest inner ih =>
    rw [elements, count, List.length_cons, List.length_append, inner, ih]
    omega

def opening (name : String) (attributes : List (String × String)) (parent : Option Nat) : Element :=
  { name := Name.localPart name, attributes := byLocalName attributes, parent }

def isText : Xml.Token → Bool
  | .text _ | .cdata _ => true
  | _ => false

def openAfter (count : Nat) : Xml.Token → Nat
  | .start _ => count + 1
  | .close => count - 1
  | _ => count

section Tokens
variable {limits : Limits} {document : Document} {opened : List Nat} {index : Nat} {tag : Xml.Tag} {name : String}
  {attributes : List (String × String)} {tokens : List Xml.Token} {content : Content}

theorem addTag_eq (tagged : WritesTag tag name attributes) (deep : opened.length < limits.depth)
    (few : (byLocalName attributes).length ≤ limits.attributes) :
    document.addTag limits opened tag = document.add opened.head? (Name.localPart name) (byLocalName attributes) := by
  have depth : limits.check .depth (opened.length + 1) = .ok () := if_neg (Nat.not_lt.mpr deep)
  have amount : limits.check .attributes (byLocalName attributes).length = .ok () := if_neg (Nat.not_lt.mpr few)
  rw [addTag, depth, tagged.name, addAttributes_byLocalName tagged.attributes]
  change limits.check .attributes (byLocalName attributes).length >>= _ = _
  rw [amount]
  rfl

theorem addTag_root (tagged : WritesTag tag name attributes) (deep : 0 < limits.depth)
    (few : (byLocalName attributes).length ≤ limits.attributes) :
    ({} : Document).addTag limits [] tag = .ok (0, { elements := #[opening name attributes none], root := some 0 }) :=
  addTag_eq tagged deep few

section Inside
variable (inside : index < document.size)
include inside

theorem addTag_inside (tagged : WritesTag tag name attributes) (deep : (index :: opened).length < limits.depth)
    (few : (byLocalName attributes).length ≤ limits.attributes) :
    document.addTag limits (index :: opened) tag =
      .ok (document.size, document.graft index [] [document.size] [opening name attributes (some index)]) := by
  rw [addTag_eq tagged deep few, List.head?_cons, add_eq inside]
  rfl

theorem graft_text (text : String) (texts : List String) (children : List Nat) (further : List Element) :
    (document.appendText index text).graft index texts children further =
      document.graft index (if Text.isBlankText text then texts else text :: texts) children further := by
  rw [appendText_eq, graft_graft inside]
  split <;> rfl

theorem graft_element (name : String) (attributes : List (String × String)) (inner rest : Content) :
    ((document.graft index [] [document.size] [opening name attributes (some index)]).graft document.size inner.texts
        (inner.children (document.size + 1))
        (inner.elements (some document.size) (document.size + 1))).graft index rest.texts
        (rest.children (document.size + 1 + inner.count))
        (rest.elements (some index) (document.size + 1 + inner.count)) =
      document.graft index (Content.element name attributes inner rest).texts
        ((Content.element name attributes inner rest).children document.size)
        ((Content.element name attributes inner rest).elements (some index) document.size) := by
  rw [graft_last, graft_graft inside, opening, absorb_content]
  rfl

end Inside

/-- What stands inside an open element is read to its texts, its children and further elements. -/
theorem readTokens_spelled (spelled : Spells tokens content) (inside : index < document.size)
    (within : content.Within limits (opened.length + 2)) (rest : List Xml.Token) :
    document.readTokens limits (index :: opened) (tokens ++ rest) =
      (document.graft index content.texts (content.children document.size)
        (content.elements (some index) document.size)).readTokens limits (index :: opened) rest := by
  -- The open element takes up what is read next to it; an element further in is itself open while its own content
  -- is read.
  induction spelled generalizing document opened index rest with
  | done => rw [List.nil_append, Content.texts, Content.children, Content.elements, graft_nothing]
  | @text raw text tokens content expands _ ih =>
    have size := (@appendText_keeps document index text).1
    rw [List.cons_append, readTokens, expands]
    change (document.appendText index text).readTokens limits (index :: opened) (tokens ++ rest) = _
    rw [ih (size ▸ inside) within, graft_text inside, size]
    rfl
  | @cdata raw text tokens content decodes _ ih =>
    have size := (@appendText_keeps document index text).1
    rw [List.cons_append, readTokens, decodes, ih (size ▸ inside) within, graft_text inside, size]
    rfl
  | comment _ ih => exact ih inside within rest
  | @empty tag name attributes tokens content tagged _ ih =>
    obtain ⟨deep, few, _, further⟩ := within
    have added := graft_element inside name attributes .done content
    rw [Content.texts, Content.children, Content.elements, graft_nothing] at added
    rw [List.cons_append, readTokens, addTag_inside inside tagged deep few]
    change (document.graft _ _ _ _).readTokens limits (index :: opened) (tokens ++ rest) = _
    rw [ih (by rw [size_graft]; exact Nat.lt_add_right _ inside) further, ← added, size_graft]
    rfl
  | @element tag name attributes inner held tokens content tagged _ _ below further =>
    obtain ⟨deep, few, shallow, flat⟩ := within
    have grown : (document.graft index [] [document.size] [opening name attributes (some index)]).size =
      document.size + 1 := size_graft
    have newest := Nat.lt_of_lt_of_eq (Nat.lt_add_one document.size) grown.symm
    have whole := @below _ (index :: opened) _ newest shallow (.close :: (tokens ++ rest))
    rw [grown] at whole
    rw [List.cons_append, readTokens, addTag_inside inside tagged deep few, List.append_assoc, ← graft_element inside]
    refine whole.trans ?_
    rw [readTokens, List.tail_cons, further (by rw [size_graft, grown]; omega) flat, size_graft,
      Content.length_elements, grown]

theorem readTokens_outside {outside : List Xml.Token} (texts : outside.all isText) (rest : List Xml.Token) :
    document.readTokens limits [] (outside ++ rest) = document.readTokens limits [] rest := by
  induction outside with
  | nil => rfl
  | cons token outside ih =>
    obtain ⟨text, texts⟩ := Bool.and_eq_true_iff.mp texts
    cases token with
    | text raw | cdata raw => exact ih texts
    | start | empty | close | fault => cases text

theorem readTokens_root (spelled : Spells tokens (.element name attributes content .done))
    (within : (Content.element name attributes content .done).Within limits 1) (rest : List Xml.Token) :
    ({} : Document).readTokens limits []
    (tokens ++ rest) = (Content.element name attributes content .done).document.readTokens limits [] rest := by
  obtain ⟨deep, few, below, _⟩ := within
  cases spelled with
  | @empty tag _ _ _ _ tagged further =>
    cases further
    rw [List.cons_append, readTokens, addTag_root tagged deep few]
    rfl
  | @element tag _ _ inner _ _ _ tagged held further =>
    cases further
    have filled : 0 < ({ elements := #[opening name attributes none], root := some 0 } : Document).size := Nat.one_pos
    have whole := @readTokens_spelled _ _ [] _ _ _ held filled below (.close :: rest)
    rw [List.cons_append, readTokens, addTag_root tagged deep few, List.append_assoc]
    refine whole.trans ?_
    rw [readTokens, List.tail_cons, graft]
    change Document.readTokens limits
      { elements := (absorb content.texts _ (opening name attributes none) :: _).toArray, root := some 0 } [] rest = _
    rw [opening, absorb_content, Content.document, Content.elements, Content.elements, List.append_nil]
    rfl

end Tokens

section Open
variable {limits : Limits} {document later : Document} {opened inner : List Nat} {token : Xml.Token}
  {first rest : List Xml.Token}

theorem readToken_length (read : document.readToken limits opened token = .ok (later, inner)) :
    inner.length = openAfter opened.length token := by
  cases token with
  | start tag | empty tag =>
    obtain ⟨_, _, same⟩ := Except.ok_of_bind read
    cases same
    rfl
  | close =>
    cases read
    exact List.length_tail
  | text raw =>
    cases opened with
    | nil =>
      cases read
      rfl
    | cons index opened =>
      obtain ⟨_, _, same⟩ := Except.ok_of_bind read
      cases same
      rfl
  | cdata raw => cases opened <;> cases read <;> rfl
  | fault offset fault => cases read

theorem readTokens_split (read : document.readTokens limits opened (first ++ rest) = .ok later) :
    ∃ middle inner, inner.length = first.foldl openAfter opened.length ∧
      ∀ others, document.readTokens limits opened (first ++ others) =
        Document.readTokens limits middle inner others := by
  induction first generalizing document opened with
  | nil => exact ⟨document, opened, rfl, fun _ => rfl⟩
  | cons token first ih =>
    rw [List.cons_append, readTokens_cons] at read
    obtain ⟨⟨next, around⟩, stepped, read⟩ := Except.ok_of_bind read
    obtain ⟨middle, inner, length, same⟩ := ih read
    refine ⟨middle, inner, ?_, fun others => ?_⟩
    · rw [length, readToken_length stepped, List.foldl_cons]
    · rw [List.cons_append, readTokens_cons, stepped, ← same others]
      rfl

theorem openAfter_read (read : document.readTokens limits opened first = .ok later) :
    first.foldl openAfter opened.length = 0 := by
  rw [← List.append_nil first] at read
  obtain ⟨middle, inner, length, same⟩ := readTokens_split read
  rw [same, readTokens] at read
  rw [← length]
  split at read
  · next none => rw [List.isEmpty_iff.mp none, List.length_nil]
  · cases read

theorem Spells.balanced {tokens : List Xml.Token} {content : Content} (spelled : Spells tokens content) (count : Nat) :
    tokens.foldl openAfter count = count ∧ ∀ cut, count ≤ (tokens.take cut).foldl openAfter count := by
  induction spelled generalizing count with
  | done => simp
  | text _ _ ih | cdata _ _ ih | empty _ _ ih =>
    refine ⟨(ih count).1, fun cut => ?_⟩
    cases cut with
    | zero => exact Nat.le_refl count
    | succ cut => exact (ih count).2 cut
  | comment _ ih => exact ih count
  | @element tag name attributes inner held tokens content _ _ _ below ih =>
    constructor
    · rw [List.foldl_cons, List.foldl_append, List.foldl_cons]
      change tokens.foldl _ ((inner.foldl _ (count + 1)) - 1) = count
      rw [(below (count + 1)).1]
      exact (ih count).1
    · intro cut
      cases cut with
      | zero => exact Nat.le_refl count
      | succ cut =>
        rw [List.take_succ_cons, List.foldl_cons, List.take_append, List.foldl_append]
        have first := (below (count + 1)).2 cut
        rcases Nat.lt_or_ge inner.length cut with past | held
        · obtain ⟨more, total⟩ := Nat.exists_eq_add_of_lt past
          rw [List.take_of_length_le (Nat.le_of_lt past), show cut - inner.length = more + 1 by omega,
            List.take_succ_cons, List.foldl_cons]
          change count ≤ (tokens.take more).foldl _ ((inner.foldl _ (count + 1)) - 1)
          rw [(below (count + 1)).1]
          exact (ih count).2 more
        · rw [Nat.sub_eq_zero_of_le held]
          exact Nat.le_of_succ_le first

/-- A tree is not closed before its end. -/
theorem Spells.unclosed {name : String} {attributes : List (String × String)} {tokens : List Xml.Token}
    {content : Content} {cut : Nat} (spelled : Spells tokens (.element name attributes content .done))
    (some : 0 < cut) (short : cut < tokens.length) (count : Nat) :
    count < (tokens.take cut).foldl openAfter count := by
  obtain ⟨cut, rfl⟩ := Nat.exists_eq_succ_of_ne_zero (Nat.ne_of_gt some)
  cases spelled with
  | empty _ further =>
    cases further
    exact absurd short (Nat.not_lt.mpr (Nat.le_add_left 1 cut))
  | @element _ _ _ inner _ _ _ _ held further =>
    cases further
    rw [List.length_cons, List.length_append, List.length_singleton] at short
    rw [List.take_succ_cons, List.take_append_of_le_length (by omega), List.foldl_cons]
    exact (held.balanced (count + 1)).2 cut

theorem isText_openAfter {outside : List Xml.Token} (texts : outside.all isText) (count : Nat) :
    outside.foldl openAfter count = count := by
  induction outside with
  | nil => rfl
  | cons token outside ih =>
    obtain ⟨text, texts⟩ := Bool.and_eq_true_iff.mp texts
    cases token with
    | text raw | cdata raw => exact ih texts
    | start | empty | close | fault => cases text

end Open

theorem addTag_again {limits : Limits} {document : Document} {tag : Xml.Tag} {top : Nat}
    (root : document.root = some top) :
    ∃ error, document.addTag limits [] tag = .error error ∧
      (0 < limits.depth → ∀ name attributes, WritesTag tag name attributes → (byLocalName attributes).length ≤
        limits.attributes →
        error = .xml .multipleRoots) := by
  have twice (name : String) (attributes : Entries String) :
      document.add none name attributes = .error (.xml .multipleRoots) := by
    rw [add, root]
  cases added : document.addTag limits [] tag with
  | ok result =>
    obtain ⟨name, attributes, _, _, added⟩ := addTag_ok added
    cases (twice _ _).symm.trans added
  | error error =>
    refine ⟨error, rfl, fun deep name attributes tagged few => ?_⟩
    have same : document.addTag limits [] tag = document.add none (Name.localPart name) (byLocalName attributes) :=
      addTag_eq tagged deep few
    exact Except.error.inj (added.symm.trans (same.trans (twice _ _)))

/-- A document in which parents list their children in order, all of them behind the parents, and whose tree has
all elements. -/
structure Arranged (document : Document) : Prop where
  behind : ∀ child parent, document.parent? child = some parent → parent < child
  children : ∀ (index : Nat) element, document.elements[index]? = some element →
    element.children.toList.Pairwise (· < ·) ∧ ∀ child, child ∈ element.children.toList ↔
    document.parent? child = some index
  whole : ∃ root, document.tree? = some root ∧ root.parts.map Tree.element = document.elements.toList

theorem Formed.arranged {document : Document} (formed : document.Formed) (filled : 0 < document.size) :
    document.Arranged where
  behind child parent stands := formed.order.after child parent stands
  children index element found := ⟨formed.children_sorted found, fun child => formed.mem_children found⟩
  whole := by
    obtain ⟨root, made, first, holds⟩ := formed.tree filled
    exact ⟨root, made, holds.elements_root formed first⟩

section Tree
variable {limits : Limits} {name : String} {attributes : List (String × String)} {inside : Content}
  {tokens before after : List Xml.Token}

/-- The tokens of a tree are read to a document that numbers its elements, whatever text there is before and after it.
A second root is an error, and so is a tree of which an end is missing: all elements of what is read are closed. -/
theorem tree_numbered (spelled : Spells tokens (.element name attributes inside .done))
    (within : (Content.element name attributes inside .done).Within limits 1) (ahead : before.all isText)
    (behind : after.all isText) :
    (({} : Document).readTokens limits [] (before ++ tokens ++ after) = .ok
      (Content.element name attributes inside .done).document ∧
      (Content.element name attributes inside .done).document.Arranged) ∧
    (∀ token tag rest, tagOf token = some tag →
      ∃ error, ({} : Document).readTokens limits [] (before ++ tokens ++ after ++ token :: rest) = .error error ∧
        ∀ other labels, WritesTag tag other labels → (byLocalName labels).length ≤ limits.attributes →
          error = .xml .multipleRoots) ∧
    (∀ cut, 0 < cut → cut < tokens.length →
      ({} : Document).readTokens limits [] (before ++ tokens.take cut) = .error (.xml .unfinished)) ∧
    ∀ given document, ({} : Document).readTokens limits [] given = .ok document → given.foldl openAfter 0 = 0 := by
  have past (rest : List Xml.Token) : ({} : Document).readTokens limits [] (before ++ tokens ++ after ++ rest) =
      (Content.element name attributes inside .done).document.readTokens limits [] rest := by
    rw [List.append_assoc, List.append_assoc, readTokens_outside ahead, readTokens_root spelled within,
      readTokens_outside behind]
  have read := past []
  rw [List.append_nil, readTokens] at read
  refine ⟨⟨read, ?_⟩, fun token tag rest tagged => ?_, fun cut some short => ?_, fun given document read => ?_⟩
  · have formed := readTokens_formed ⟨formed_empty, .nil, by simp⟩ read
    exact formed.arranged (Nat.succ_pos _)
  · rw [past]
    obtain ⟨error, refused, multiple⟩ :=
      @addTag_again limits (Content.element name attributes inside .done).document tag 0 rfl
    refine ⟨error, ?_, fun other labels written few => multiple within.1 other labels written few⟩
    rw [readTokens_cons]
    cases token with
    | start | empty =>
      obtain rfl := Option.some.inj tagged
      rw [readToken, refused]
      rfl
    | close | text | cdata | fault => cases tagged
  · have whole : ({} : Document).readTokens limits [] (before ++ tokens.take cut ++ (tokens.drop cut ++ after)) =
        .ok (Content.element name attributes inside .done).document := by
      rwa [List.append_assoc, ← List.append_assoc (tokens.take cut), List.take_append_drop, ← List.append_assoc]
    obtain ⟨middle, inner, length, same⟩ := readTokens_split whole
    rw [List.foldl_append, List.length_nil, isText_openAfter ahead] at length
    have opened := spelled.unclosed some short 0
    rw [← List.append_nil (before ++ tokens.take cut), same, readTokens, if_neg]
    rw [List.isEmpty_iff, ← List.length_eq_zero_iff, length]
    exact Nat.ne_of_gt opened
  · exact openAfter_read read

end Tree

/-- A tree with labels, a name that comes twice, texts between elements, blank data and a comment. -/
def letter : Content :=
  .element "p:letter" [("xmlns:p", "u"), ("a:to", "1"), ("on", "3"), ("b:to", "2")]
    (.text "Dear" (.cdata " "
      (.element "b" [] .done (.text "all" (.comment (.element "c" [] (.text "x" .done) .done)))))) .done

def letterTokens : List Xml.Token :=
  [.start ⟨Xml.ascii "p:letter xmlns:p='u' a:to='1' on='3' b:to='2'"⟩, .text (Xml.ascii "Dear"), .cdata (Xml.ascii " "),
    .empty ⟨Xml.ascii "b"⟩, .text (Xml.ascii "all"), .start ⟨Xml.ascii "c"⟩, .text (Xml.ascii "x"), .close, .close]

theorem letter_spelled : Spells letterTokens letter := by
  have given : Xml.Tag.attributes ⟨Xml.ascii "p:letter xmlns:p='u' a:to='1' on='3' b:to='2'"⟩ =
      [.ok ⟨Xml.ascii "xmlns:p", Xml.ascii "u"⟩, .ok ⟨Xml.ascii "a:to", Xml.ascii "1"⟩,
        .ok ⟨Xml.ascii "on", Xml.ascii "3"⟩, .ok ⟨Xml.ascii "b:to", Xml.ascii "2"⟩] := by cbv
  have none (name : String) (bare : Xml.Tag.attributes ⟨Xml.ascii name⟩ = []) :
    List.Forall₂ Writes (Xml.Tag.attributes ⟨Xml.ascii name⟩) [] :=
    bare ▸ .nil
  refine .element ⟨by cbv, ?_⟩ (.text (by cbv) (.cdata (by cbv) (.empty ⟨by cbv, none "b" (by cbv)⟩ (.text (by cbv)
    (.comment (.element ⟨by cbv, none "c" (by cbv)⟩ (.text (by cbv) .done) .done)))))) .done
  rw [given]
  exact .cons ⟨_, rfl, by cbv, fun plain => by cases plain⟩ (.cons ⟨_, rfl, by cbv, fun _ => by cbv⟩
    (.cons ⟨_, rfl, by cbv, fun _ => by cbv⟩ (.cons ⟨_, rfl, by cbv, fun _ => by cbv⟩ .nil)))

theorem letter_within : letter.Within {} 1 :=
  ⟨by decide, by cbv, ⟨by decide, by cbv, trivial, by decide, by cbv, trivial, trivial⟩, trivial⟩

theorem letter_numbered :
    Xml.tokens "<p:letter xmlns:p='u' a:to='1' on='3' b:to='2'>Dear<![CDATA[ ]]><b/>all<!-- - --><c>x</c></p:letter>".toUTF8.toList =
      letterTokens ∧
    letter.document.elements.toList =
      [{ name := "letter", attributes := [("to", "2"), ("on", "3")], text := some "Dearall", children := #[1, 2] },
        { name := "b", parent := some 0 }, { name := "c", text := some "x", parent := some 0 }] ∧
    ({} : Document).readTokens {} [] ([.text (Xml.ascii "&")] ++ letterTokens ++ []) = .ok letter.document :=
  ⟨by cbv, by cbv, (tree_numbered letter_spelled letter_within rfl rfl).1.1⟩

end SchemaClasses.Document
