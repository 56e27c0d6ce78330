import SchemaClasses.Document.Basic
import SchemaClasses.Proofs.DepthFirst

/-! Documents that were read. Elements are numbered depth first, and each lists those that it is the parent of. -/

namespace SchemaClasses

theorem Except.ok_of_bind {ε α β : Type} {first : Except ε α} {rest : α → Except ε β} {result : β}
    (ok : first >>= rest = .ok result) : ∃ value, first = .ok value ∧ rest value = .ok result := by
  cases first with
  | error _ => cases ok
  | ok value => exact ⟨value, rfl, ok⟩

namespace Document

def parent? (document : Document) (index : Nat) : Option Nat :=
  document.elements[index]? >>= Element.parent

def childrenOf (document : Document) (index : Nat) : List Nat :=
  (document.elements[index]?.map fun element => element.children.toList).getD []

structure Formed (document : Document) : Prop where
  order : DepthFirst document.parent? document.size
  root : document.root = if document.size = 0 then none else some 0
  children : ∀ index, document.childrenOf index = (List.range document.size).filter fun child =>
    document.parent? child = some index

section Changes
variable {document later : Document} {index : Nat}

theorem childrenOf_eq {element : Element} (found : document.elements[index]? = some element) :
    document.childrenOf index = element.children.toList := by
  rw [childrenOf, found]
  rfl

theorem parent?_outside (outside : document.size ≤ index) : document.parent? index = none := by
  rw [parent?, Array.getElem?_eq_none outside]
  rfl

theorem lt_of_parent? {parent : Nat} (stands : document.parent? index = some parent) : index < document.size := by
  rcases Nat.lt_or_ge index document.size with inside | outside
  · exact inside
  · cases (parent?_outside outside).symm.trans stands

theorem formed_empty : ({} : Document).Formed where
  order :=
    { root := rfl
      inside := fun _ _ stands => by cases stands
      after := fun _ _ stands => by cases stands
      stands := fun _ _ inside => absurd inside (Nat.not_lt_zero _)
      next := fun _ _ stands => by cases stands }
  root := rfl
  children _ := rfl

theorem Formed.congr (formed : document.Formed) (size : later.size = document.size) (root : later.root = document.root)
    (parent : later.parent? = document.parent?) (children : later.childrenOf = document.childrenOf) : later.Formed where
  order := by rw [parent, size]; exact formed.order
  root := by rw [root, size]; exact formed.root
  children := by rw [parent, size, children]; exact formed.children

section Modify
variable {f : Element → Element}

theorem size_modify : (document.modify index f).size = document.size :=
  Array.size_modify

theorem parent?_modify (keeps : ∀ element, (f element).parent = element.parent) :
    (document.modify index f).parent? = document.parent? := by
  funext other
  simp only [parent?, modify, Array.getElem?_modify]
  split
  · cases document.elements[other]? with
    | none => rfl
    | some element => exact keeps element
  · rfl

theorem childrenOf_modify (keeps : ∀ element, (f element).children = element.children) :
    (document.modify index f).childrenOf = document.childrenOf := by
  funext other
  simp only [childrenOf, modify, Array.getElem?_modify]
  split
  · cases document.elements[other]? with
    | none => rfl
    | some element => simp [keeps]
  · rfl

end Modify

theorem childrenOf_adopt {parent child : Nat} (inside : parent < document.size) :
    (document.modify parent fun element => { element with children := element.children.push child }).childrenOf index =
      document.childrenOf index ++ if some parent = some index then [child] else [] := by
  simp only [childrenOf, modify, Array.getElem?_modify, Option.some.injEq]
  split
  · next same =>
    obtain rfl := same
    rw [Array.getElem?_eq_getElem inside]
    simp
  · rw [List.append_nil]

section Push
variable {element : Element}

theorem parent?_push : ({ document with elements := document.elements.push element } : Document).parent? index =
    if index = document.size then element.parent else document.parent? index := by
  rw [parent?, Array.getElem?_push, size]
  split <;> rfl

theorem childrenOf_push (childless : element.children = #[]) :
    ({ document with elements := document.elements.push element } : Document).childrenOf index =
      document.childrenOf index := by
  rw [childrenOf, Array.getElem?_push]
  split
  · next last =>
    rw [childrenOf, last, Array.getElem?_eq_none (Nat.le_refl _), Option.map_some, childless]
    rfl
  · rfl

end Push

/-- What a further element changes. -/
structure Adds (document : Document) (outer : Option Nat) (later : Document) : Prop where
  size : later.size = document.size + 1
  parent : ∀ index, later.parent? index = if index = document.size then outer else document.parent? index
  children : ∀ index, later.childrenOf index = document.childrenOf index ++
    if outer = some index then [document.size] else []
  root : later.root = if outer = none then some document.size else document.root
  single : outer = none → document.root = none

theorem add_adds {outer : Option Nat} {name : String} {attributes : Entries String}
    (inside : ∀ parent, outer = some parent → parent < document.size)
    (added : document.add outer name attributes = .ok (index, later)) :
    index = document.size ∧ document.Adds outer later := by
  unfold add at added
  cases outer with
  | none =>
    cases root : document.root with
    | some _ => simp [root] at added
    | none =>
      simp only [root, Except.ok.injEq, Prod.mk.injEq] at added
      obtain ⟨rfl, rfl⟩ := added
      refine ⟨rfl, ⟨Array.size_push _, fun _ => parent?_push, fun other => ?_, rfl, fun _ => root⟩⟩
      rw [if_neg (by simp), List.append_nil]
      exact childrenOf_push rfl
  | some outer =>
    simp only [Except.ok.injEq, Prod.mk.injEq] at added
    obtain ⟨rfl, rfl⟩ := added
    have within : outer < document.size + 1 := Nat.lt_succ_of_lt (inside outer rfl)
    refine ⟨rfl, ⟨?_, fun other => ?_, fun other => ?_, rfl, fun top => by cases top⟩⟩
    · rw [size_modify]
      exact Array.size_push _
    · refine (congrFun (parent?_modify ?_) other).trans parent?_push
      exact fun _ => rfl
    · rw [childrenOf_adopt (by simpa [size] using within)]
      exact congrArg (· ++ _) (childrenOf_push rfl)

namespace Adds
variable {outer : Option Nat} (adds : document.Adds outer later)
include adds

theorem keeps {parent : Nat} (stands : document.parent? index = some parent) : later.parent? index = some parent := by
  rw [adds.parent, if_neg (Nat.ne_of_lt (lt_of_parent? stands))]
  exact stands

theorem cases {parent : Nat} (stands : later.parent? index = some parent) :
    index = document.size ∧ outer = some parent ∨ document.parent? index = some parent := by
  rw [adds.parent] at stands
  split at stands
  · next same => exact Or.inl ⟨same, stands⟩
  · exact Or.inr stands

theorem empty (formed : document.Formed) (top : outer = none) : document.size = 0 := by
  have none := adds.single top
  rw [formed.root] at none
  by_contra filled
  rw [if_neg filled] at none
  cases none

section Last
variable (sound : document.Formed)
  (last : ∀ parent, outer = some parent → parent < document.size ∧ Within document.parent? parent (document.size - 1))
include sound last

/-- A further element is the last in the depth-first order if it stands in the last one or around that. -/
theorem order : DepthFirst later.parent? later.size := by
  refine ⟨?_, ?_, ?_, ?_, ?_⟩
  · rw [adds.parent]
    split
    · next first =>
      rw [Option.eq_none_iff_forall_ne_some]
      intro parent top
      exact Nat.not_lt_zero parent (first ▸ (last parent top).1)
    · exact sound.order.root
  · intro child parent stands
    rw [adds.size]
    rcases adds.cases stands with ⟨rfl, _⟩ | stands
    · exact Nat.lt_succ_self _
    · exact Nat.lt_succ_of_lt (lt_of_parent? stands)
  · intro child parent stands
    rcases adds.cases stands with ⟨rfl, top⟩ | stands
    · exact (last parent top).1
    · exact sound.order.after child parent stands
  · intro child later inside
    rw [adds.size] at inside
    rw [adds.parent]
    split
    · next same =>
      cases outer with
      | none => exact absurd (adds.empty sound rfl) (same ▸ Nat.ne_of_gt later)
      | some parent => exact ⟨parent, rfl⟩
    · next other => exact sound.order.stands child later (Nat.lt_of_le_of_ne (Nat.le_of_lt_succ inside) other)
  · intro index parent stands
    apply Within.mono fun child parent stands => adds.keeps stands
    rcases adds.cases stands with ⟨same, top⟩ | stands
    · have before : document.size - 1 = index := by omega
      exact before ▸ (last parent top).2
    · exact sound.order.next index parent stands

theorem formed : later.Formed where
  order := adds.order sound last
  root := by
    rw [adds.root, adds.size, if_neg (Nat.succ_ne_zero _)]
    split
    · next top => rw [adds.empty sound top]
    · next nested =>
      obtain ⟨parent, top⟩ := Option.ne_none_iff_exists'.mp nested
      rw [sound.root, if_neg (Nat.ne_of_gt (Nat.zero_lt_of_lt (last parent top).1))]
  children index := by
    have old : (List.range document.size).filter (fun child => later.parent? child = some index) =
        document.childrenOf index := by
      rw [sound.children]
      apply List.filter_congr
      intro child member
      rw [adds.parent, if_neg (Nat.ne_of_lt (List.mem_range.mp member))]
    rw [adds.children, adds.size, List.range_succ, List.filter_append, old]
    simp [List.filter_cons, adds.parent]

end Last

end Adds

end Changes

/-- A document while it is read. The elements that are open stand in each other, and the last element stands in
all of them. -/
structure Open (document : Document) (opened : List Nat) : Prop where
  formed : document.Formed
  chain : opened.IsChain fun child parent => document.parent? child = some parent
  last : ∀ index ∈ opened, index < document.size ∧ Within document.parent? index (document.size - 1)

namespace Open
variable {document later : Document} {opened : List Nat} {index : Nat}

theorem close (reading : document.Open opened) : document.Open opened.tail where
  formed := reading.formed
  chain := reading.chain.tail
  last index member := reading.last index (List.mem_of_mem_tail member)

theorem append (reading : document.Open opened) (text : String) : (document.appendText index text).Open opened := by
  unfold appendText
  split
  · exact reading
  · have parent := @parent?_modify document index
      (fun element => { element with text := some (element.text.getD "" ++ text) }) fun _ => rfl
    refine ⟨reading.formed.congr size_modify rfl parent (childrenOf_modify fun _ => rfl), ?_, ?_⟩
    · rw [parent]
      exact reading.chain
    · rw [parent, size_modify]
      exact reading.last

theorem add (reading : document.Open opened) (adds : document.Adds opened.head? later) :
    later.Open (document.size :: opened) ∧ later.Open opened := by
  have formed := adds.formed reading.formed fun parent head => reading.last parent (List.mem_of_mem_head? head)
  have chain : opened.IsChain fun child parent => later.parent? child = some parent :=
    reading.chain.imp fun child parent stands => adds.keeps stands
  have own : later.parent? document.size = opened.head? := by rw [adds.parent, if_pos rfl]
  have all : (document.size :: opened).IsChain fun child parent => later.parent? child = some parent := by
    cases opened with
    | nil => exact List.isChain_singleton _
    | cons outer opened => exact List.isChain_cons_cons.mpr ⟨own, chain⟩
  have last : ∀ index ∈ document.size :: opened, index < later.size ∧ Within later.parent? index (later.size - 1) := by
    intro index member
    rw [adds.size, Nat.add_sub_cancel]
    refine ⟨?_, Within.of_chain all index member⟩
    rcases List.mem_cons.mp member with rfl | member
    · exact Nat.lt_succ_self _
    · exact Nat.lt_succ_of_lt (reading.last index member).1
  exact ⟨⟨formed, all, last⟩, ⟨formed, chain, fun index member => last index (List.mem_cons_of_mem _ member)⟩⟩

theorem tag {limits : Limits} {tag : Xml.Tag} (reading : document.Open opened)
    (tagged : document.addTag limits opened tag = .ok (index, later)) :
    later.Open (index :: opened) ∧ later.Open opened := by
  obtain ⟨_, _, tagged⟩ := Except.ok_of_bind tagged
  obtain ⟨name, _, tagged⟩ := Except.ok_of_bind tagged
  obtain ⟨attributes, _, tagged⟩ := Except.ok_of_bind tagged
  obtain ⟨_, _, added⟩ := Except.ok_of_bind tagged
  obtain ⟨rfl, adds⟩ := add_adds (fun parent head => (reading.last parent (List.mem_of_mem_head? head)).1) added
  exact reading.add adds

end Open

theorem readTokens_formed {limits : Limits} {document later : Document} {opened : List Nat} {tokens : List Xml.Token}
    (reading : document.Open opened) (read : document.readTokens limits opened tokens = .ok later) : later.Formed := by
  induction tokens generalizing document opened with
  | nil =>
    unfold readTokens at read
    split at read
    · cases read
      exact reading.formed
    · cases read
  | cons token tokens ih =>
    cases token with
    | start tag =>
      obtain ⟨_, tagged, read⟩ := Except.ok_of_bind read
      exact ih (reading.tag tagged).1 read
    | empty tag =>
      obtain ⟨_, tagged, read⟩ := Except.ok_of_bind read
      exact ih (reading.tag tagged).2 read
    | close => exact ih reading.close read
    | text raw =>
      cases opened with
      | nil => exact ih reading read
      | cons index opened =>
        obtain ⟨text, _, read⟩ := Except.ok_of_bind read
        exact ih (reading.append text) read
    | cdata raw =>
      cases opened with
      | nil => exact ih reading read
      | cons index opened => exact ih (reading.append _) read
    | fault offset fault => cases read

/-- Whatever is read is well formed. -/
theorem read_formed {limits : Limits} {bytes : List UInt8} {document : Document}
    (read : Document.read limits bytes = .ok document) :
    document.Formed := by
  obtain ⟨_, _, read⟩ := Except.ok_of_bind read
  have start : ({} : Document).Open [] := ⟨formed_empty, .nil, by simp⟩
  exact readTokens_formed start read

end Document

end SchemaClasses
