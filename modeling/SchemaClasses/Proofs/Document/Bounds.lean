import SchemaClasses.Proofs.Document.Formed
import Mathlib.Data.Finset.Card
import Mathlib.Data.Finset.Dedup
import Mathlib.Data.List.Infix

/-! Reading within limits. The limits decide whether a document is read and nothing else: of a document that is read
within some limits, others refuse an element that is too deep or has too many attributes, and only that. -/

namespace SchemaClasses

/-- An error that tells of an amount beyond the limits. -/
def Limits.Refuses (limits : Limits) (error : Error) : Prop :=
  ∃ measure amount, limits.maximum measure < amount ∧ error = .limitExceeded measure amount (limits.maximum measure)

section Decides
variable {limits : Limits}

/-- Something is had where it fits, and refused where it does not. -/
def Limits.Decides {α : Type} (limits : Limits) (fits : Prop) (outcome : Except Error α) (value : α) : Prop :=
  fits ∧ outcome = .ok value ∨ ¬fits ∧ ∃ error, limits.Refuses error ∧ outcome = .error error

namespace Limits.Decides
variable {α β : Type} {fits fitting : Prop} {value : α} {result : β}

theorem check (limits : Limits) (measure : Measure) (amount : Nat) :
    limits.Decides (amount ≤ limits.maximum measure) (limits.check measure amount) () := by
  by_cases within : amount ≤ limits.maximum measure
  · exact Or.inl ⟨within, if_neg (Nat.not_lt.mpr within)⟩
  · have beyond := Nat.lt_of_not_le within
    exact Or.inr ⟨within, _, ⟨measure, amount, beyond, rfl⟩, if_pos beyond⟩

theorem always {outcome : Except Error α} (same : outcome = .ok value) : limits.Decides True outcome value :=
  Or.inl ⟨trivial, same⟩

theorem bind {first : Except Error α} {rest : α → Except Error β} (one : limits.Decides fits first value)
    (two : fits → limits.Decides fitting (rest value) result) (needs : fitting → fits) :
    limits.Decides fitting (first >>= rest) result := by
  rcases one with ⟨fit, rfl⟩ | ⟨unfit, error, refused, rfl⟩
  · exact two fit
  · exact Or.inr ⟨mt needs unfit, error, refused, rfl⟩

theorem congr {outcome : Except Error α} (decides : limits.Decides fits outcome value) (same : fits ↔ fitting) :
    limits.Decides fitting outcome value :=
  propext same ▸ decides

section Read
variable {outcome : Except Error α} (decides : limits.Decides fits outcome value)
include decides

theorem ok (fit : fits) : outcome = .ok value := by
  rcases decides with ⟨_, same⟩ | ⟨unfit, _⟩
  · exact same
  · exact absurd fit unfit

theorem isOk : outcome.isOk ↔ fits := by
  rcases decides with ⟨fit, rfl⟩ | ⟨unfit, error, _, rfl⟩
  · exact iff_of_true rfl fit
  · exact iff_of_false Bool.false_ne_true unfit

theorem refused {error : Error} (failed : outcome = .error error) : limits.Refuses error := by
  rcases decides with ⟨_, same⟩ | ⟨_, other, refused, same⟩
  · cases failed.symm.trans same
  · cases failed.symm.trans same
    exact refused

end Read

end Limits.Decides

end Decides

theorem Entries.keys_alter {α : Type} {key : String} {f : Option α → α} {entries : Entries α} :
    (entries.alter key f).map Prod.fst =
      if key ∈ entries.map Prod.fst then entries.map Prod.fst else entries.map Prod.fst ++ [key] := by
  induction entries with
  | nil => rfl
  | cons first rest ih =>
    obtain ⟨name, value⟩ := first
    by_cases own : name = key
    · simp [alter, own]
    · have same : key ∈ ((name, value) :: rest).map Prod.fst ↔ key ∈ rest.map Prod.fst := by
        rw [List.map_cons, List.mem_cons, or_iff_right (Ne.symm own)]
      rw [alter, if_neg own, List.map_cons, ih, apply_ite (List.cons name), if_congr same rfl rfl]
      rfl

theorem Except.ok_of_mapError {ε δ α : Type} {value : Except ε α} {change : ε → δ} {result : α}
    (ok : value.mapError change = .ok result) : value = .ok result := by
  cases value with
  | error _ => cases ok
  | ok value =>
    cases ok
    rfl

namespace Document

def tagOf : Xml.Token → Option Xml.Tag
  | .start tag | .empty tag => some tag
  | _ => none

/-- The local name of an attribute, unless it declares a namespace. -/
def storedName (item : Except Xml.AttributeFault Xml.RawAttribute) : Option String := do
  let raw ← item.toOption
  let key ← (Utf8.decodeString raw.key).toOption
  if isNamespaceDeclaration key then none else some (Name.localPart key)

def nameCount (tag : Xml.Tag) : Nat :=
  (tag.attributes.filterMap storedName).toFinset.card

section Attributes
variable {attributes later : Entries String} {items : List (Except Xml.AttributeFault Xml.RawAttribute)}

theorem addAttribute_eq {raw : Xml.RawAttribute} {key : String} (named : Utf8.decodeString raw.key = .ok key) :
    addAttribute attributes (.ok raw) =
      if isNamespaceDeclaration key then .ok attributes
      else (Xml.expand raw.value).mapError .attributeValue >>= fun value =>
        .ok (attributes.insert (Name.localPart key) value) := by
  change ((Utf8.decodeString raw.key).mapError Xml.Fault.attributeName >>= _) = _
  rw [named]
  rfl

theorem addAttribute_names {item : Except Xml.AttributeFault Xml.RawAttribute}
    (added : addAttribute attributes item = .ok later) (distinct : (attributes.map Prod.fst).Nodup) :
    (later.map Prod.fst).Nodup ∧ ∀ name, name ∈ later.map Prod.fst ↔
      name ∈ attributes.map Prod.fst ∨ storedName item = some name := by
  obtain ⟨raw, given, keyed⟩ := Except.ok_of_bind added
  obtain ⟨key, decoded, stored⟩ := Except.ok_of_bind keyed
  have name : storedName item = if isNamespaceDeclaration key then none else some (Name.localPart key) := by
    rw [Except.ok_of_mapError given, storedName]
    change ((Utf8.decodeString raw.key).toOption >>= _) = _
    rw [Except.ok_of_mapError decoded]
    rfl
  rw [name]
  split at stored
  · next declares =>
    obtain rfl := Except.ok.inj stored
    simpa [declares] using distinct
  · next plain =>
    obtain ⟨value, _, inserted⟩ := Except.ok_of_bind stored
    obtain rfl := Except.ok.inj inserted
    rw [Entries.insert, Entries.keys_alter, if_neg plain]
    split
    · next known => exact ⟨distinct,
        fun name => ⟨Or.inl, fun either => either.elim id fun same => Option.some.inj same ▸ known⟩⟩
    · next new =>
      refine ⟨by simpa using distinct.concat new, fun name => ?_⟩
      rw [List.mem_append, List.mem_singleton, Option.some.injEq, eq_comm]

theorem addAttributes_names (added : items.foldlM addAttribute attributes = .ok later)
    (distinct : (attributes.map Prod.fst).Nodup) :
    (later.map Prod.fst).Nodup ∧
      ∀ name, name ∈ later.map Prod.fst ↔ name ∈ attributes.map Prod.fst ∨ name ∈ items.filterMap storedName := by
  induction items generalizing attributes with
  | nil =>
    obtain rfl := Except.ok.inj added
    exact ⟨distinct, by simp⟩
  | cons item items ih =>
    obtain ⟨middle, first, rest⟩ := Except.ok_of_bind added
    obtain ⟨once, known⟩ := addAttribute_names first distinct
    obtain ⟨still, all⟩ := ih rest once
    refine ⟨still, fun name => ?_⟩
    rw [all, known, or_assoc, List.mem_filterMap, List.mem_filterMap, List.exists_mem_cons_iff]

theorem length_attributes (added : items.foldlM addAttribute [] = .ok later) :
    later.length = (items.filterMap storedName).toFinset.card := by
  obtain ⟨distinct, all⟩ := addAttributes_names added List.nodup_nil
  have same : (later.map Prod.fst).toFinset = (items.filterMap storedName).toFinset := by
    ext name
    rw [List.mem_toFinset, List.mem_toFinset, all]
    simp
  rw [← same, List.toFinset_card_of_nodup distinct, List.length_map]

end Attributes

/-- The depth of an element: that of the root is one, that of any other one more than that of its parent. -/
inductive Nested (document : Document) : Nat → Nat → Prop where
  | root {index} (inside : index < document.size) (top : document.parent? index = none) : Nested document index 1
  | child {child parent depth} (stands : document.parent? child = some parent) (above : Nested document parent depth) :
      Nested document child (depth + 1)

namespace Nested
variable {document later : Document} {index depth : Nat}

theorem inside (nested : document.Nested index depth) : index < document.size := by
  cases nested with
  | root inside _ => exact inside
  | child stands _ => exact lt_of_parent? stands

theorem unique {other : Nat} (one : document.Nested index depth) (two : document.Nested index other) :
    depth = other := by
  induction one generalizing other with
  | root _ top =>
    cases two with
    | root => rfl
    | child stands _ => cases top.symm.trans stands
  | child stands _ ih =>
    cases two with
    | root _ top => cases top.symm.trans stands
    | child same above =>
      obtain rfl := Option.some.inj (stands.symm.trans same)
      rw [ih above]

theorem mono (size : document.size ≤ later.size)
    (keeps : ∀ index < document.size, later.parent? index = document.parent? index)
    (nested : document.Nested index depth) : later.Nested index depth := by
  induction nested with
  | root inside top => exact .root (Nat.lt_of_lt_of_le inside size) ((keeps _ inside).trans top)
  | child stands _ ih => exact .child ((keeps _ (lt_of_parent? stands)).trans stands) ih

end Nested

def stored (document : Document) : List (Entries String) :=
  document.elements.toList.map Element.attributes

/-- A document whose elements are at most as deep and have at most as many attributes as the limits allow. -/
structure Fits (document : Document) (limits : Limits) : Prop where
  depth : ∀ index depth, document.Nested index depth → depth ≤ limits.depth
  attributes : ∀ attributes ∈ document.stored, attributes.length ≤ limits.attributes

/-- More elements behind those that there are, whose parents and attributes stay. -/
structure Continues (document later : Document) : Prop where
  size : document.size ≤ later.size
  parent : ∀ index < document.size, later.parent? index = document.parent? index
  stored : document.stored <+: later.stored

section Changes
variable {document middle later : Document} {index : Nat}

theorem Continues.trans (first : document.Continues middle) (last : middle.Continues later) :
    document.Continues later where
  size := Nat.le_trans first.size last.size
  parent index inside := (last.parent index (Nat.lt_of_lt_of_le inside first.size)).trans (first.parent index inside)
  stored := first.stored.trans last.stored

theorem Continues.nested {depth : Nat} (continues : document.Continues later) (nested : document.Nested index depth) :
    later.Nested index depth :=
  nested.mono continues.size continues.parent

theorem Continues.fits {limits : Limits} (continues : document.Continues later) (fits : later.Fits limits) :
    document.Fits limits where
  depth index depth nested := fits.depth index depth (continues.nested nested)
  attributes attributes member := fits.attributes attributes (continues.stored.subset member)

theorem stored_modify {f : Element → Element} (keeps : ∀ element, (f element).attributes = element.attributes) :
    (document.modify index f).stored = document.stored := by
  rw [stored, modify, Array.toList_modify, stored]
  apply List.ext_getElem?
  intro place
  rw [List.getElem?_map, List.getElem?_modify, List.getElem?_map]
  split
  · cases document.elements.toList[place]? with
    | none => rfl
    | some element => exact congrArg some (keeps element)
  · cases document.elements.toList[place]? <;> rfl

theorem stored_add {outer : Option Nat} {name : String} {attributes : Entries String}
    (added : document.add outer name attributes = .ok (index, later)) :
    later.stored = document.stored ++ [attributes] := by
  unfold add at added
  cases outer with
  | none =>
    cases root : document.root with
    | some _ => simp [root] at added
    | none =>
      simp only [root, Except.ok.injEq, Prod.mk.injEq] at added
      obtain ⟨-, rfl⟩ := added
      simp [stored]
  | some outer =>
    simp only [Except.ok.injEq, Prod.mk.injEq] at added
    obtain ⟨-, rfl⟩ := added
    refine (stored_modify ?_).trans ?_
    · exact fun _ => rfl
    · simp [stored]

theorem appendText_keeps (text : String) : (document.appendText index text).size = document.size ∧
    (document.appendText index text).parent? = document.parent? ∧
    (document.appendText index text).stored = document.stored := by
  unfold appendText
  split
  · exact ⟨rfl, rfl, rfl⟩
  · exact ⟨size_modify, parent?_modify fun _ => rfl, stored_modify fun _ => rfl⟩

/-- A document while it is read: every element has a depth, and those that are open stand in each other. -/
structure Stacked (document : Document) (opened : List Nat) : Prop where
  every : ∀ index < document.size, ∃ depth, document.Nested index depth
  opened : ∀ index rest, index :: rest <:+ opened → document.Nested index (rest.length + 1)

section Steps
variable {granted : Limits} {opened inner : List Nat} {tag : Xml.Tag} {token : Xml.Token}

theorem Stacked.add (stacked : document.Stacked opened) (adds : document.Adds opened.head? later)
    (continues : document.Continues later) :
    later.Nested document.size (opened.length + 1) ∧ later.Stacked (document.size :: opened) := by
  have own : later.parent? document.size = opened.head? := by rw [adds.parent, if_pos rfl]
  have nested : later.Nested document.size (opened.length + 1) := by
    cases opened with
    | nil => exact .root (by rw [adds.size]; exact Nat.lt_succ_self _) own
    | cons outer opened => exact .child own (continues.nested (stacked.opened outer opened List.suffix_rfl))
  refine ⟨nested, ⟨fun index inside => ?_, fun index rest suffix => ?_⟩⟩
  · rw [adds.size] at inside
    rcases Nat.lt_succ_iff_lt_or_eq.mp inside with before | rfl
    · obtain ⟨depth, known⟩ := stacked.every index before
      exact ⟨depth, continues.nested known⟩
    · exact ⟨_, nested⟩
  · rcases List.suffix_cons_iff.mp suffix with same | inside
    · obtain ⟨rfl, rfl⟩ := List.cons.inj same
      exact nested
    · exact continues.nested (stacked.opened index rest inside)

theorem Stacked.fits {limits : Limits} {attributes : Entries String} {depth : Nat} (stacked : document.Stacked opened)
    (continues : document.Continues later) (size : later.size = document.size + 1)
    (stored : later.stored = document.stored ++ [attributes]) (nested : later.Nested document.size depth)
    (fits : document.Fits limits) :
    later.Fits limits ↔ depth ≤ limits.depth ∧ attributes.length ≤ limits.attributes := by
  constructor
  · intro all
    exact ⟨all.depth _ _ nested, all.attributes _ (by simp [stored])⟩
  · intro ⟨deep, few⟩
    refine ⟨fun index other found => ?_, fun list member => ?_⟩
    · have inside := found.inside
      rw [size] at inside
      rcases Nat.lt_succ_iff_lt_or_eq.mp inside with before | rfl
      · obtain ⟨own, known⟩ := stacked.every index before
        exact found.unique (continues.nested known) ▸ fits.depth index own known
      · exact found.unique nested ▸ deep
    · rw [stored, List.mem_append, List.mem_singleton] at member
      rcases member with old | rfl
      · exact fits.attributes list old
      · exact few

theorem addTag_ok (tagged : document.addTag granted opened tag = .ok (index, later)) :
    ∃ name attributes, (Utf8.decodeString tag.name).mapError (fun fault => Error.xml (.elementName fault)) = .ok name ∧
      (tag.attributes.foldlM addAttribute []).mapError Error.xml = .ok attributes ∧
      document.add opened.head? (Name.localPart name) attributes = .ok (index, later) := by
  obtain ⟨_, _, checked⟩ := Except.ok_of_bind tagged
  obtain ⟨name, named, checked⟩ := Except.ok_of_bind checked
  obtain ⟨attributes, stated, checked⟩ := Except.ok_of_bind checked
  obtain ⟨_, _, added⟩ := Except.ok_of_bind checked
  exact ⟨name, attributes, named, stated, added⟩

/-- What reading a step further does, whatever the limits, and which limits allow it. -/
structure Reads {α : Type} (document later : Document) (inner : List Nat) (names : List Nat)
    (read : Limits → Except Error α) (result : α) : Prop where
  continues : document.Continues later
  stacked : later.Stacked inner
  counts : later.stored.map List.length = document.stored.map List.length ++ names
  decides : ∀ limits, document.Fits limits → limits.Decides (later.Fits limits) (read limits) result

namespace Reads
variable {α β : Type} {outer : List Nat} {names more : List Nat}

theorem quiet {read : Limits → Except Error α} {result : α} (stacked : document.Stacked opened)
    (size : later.size = document.size) (parent : later.parent? = document.parent?)
    (stored : later.stored = document.stored) (inside : inner <:+ opened)
    (same : ∀ limits, read limits = .ok result) : document.Reads later inner [] read result := by
  have forth : document.Continues later :=
    ⟨Nat.le_of_eq size.symm, fun index _ => congrFun parent index, stored ▸ List.prefix_rfl⟩
  have back : later.Continues document :=
    ⟨Nat.le_of_eq size, fun index _ => (congrFun parent index).symm, stored ▸ List.prefix_rfl⟩
  refine ⟨forth, ⟨fun index within => ?_, fun index rest suffix => ?_⟩, ?_, fun limits fits => ?_⟩
  · obtain ⟨depth, nested⟩ := stacked.every index (size ▸ within)
    exact ⟨depth, forth.nested nested⟩
  · exact forth.nested (stacked.opened index rest (suffix.trans inside))
  · rw [stored, List.append_nil]
  · exact Or.inl ⟨back.fits fits, same limits⟩

theorem bind {first : Limits → Except Error α} {rest : Limits → α → Except Error β} {value : α} {result : β}
    (one : document.Reads middle inner names first value) (two : middle.Reads later outer more (rest · value) result) :
    document.Reads later outer (names ++ more) (fun limits => first limits >>= rest limits) result where
  continues := one.continues.trans two.continues
  stacked := two.stacked
  counts := by rw [two.counts, one.counts, List.append_assoc]
  decides limits fits := (one.decides limits fits).bind (fun fit => two.decides limits fit) two.continues.fits

end Reads

theorem addTag_reads (stacked : document.Stacked opened)
    (tagged : document.addTag granted opened tag = .ok (index, later)) :
    document.Reads later (index :: opened) [nameCount tag] (document.addTag · opened tag) (index, later) := by
  obtain ⟨name, attributes, named, stated, added⟩ := addTag_ok tagged
  have inside : ∀ parent, opened.head? = some parent → parent < document.size := by
    intro parent head
    obtain ⟨rest, rfl⟩ := List.head?_eq_some_iff.mp head
    exact (stacked.opened parent rest List.suffix_rfl).inside
  have stored := stored_add added
  obtain ⟨rfl, adds⟩ := add_adds inside added
  have continues : document.Continues later :=
    ⟨adds.size ▸ Nat.le_succ _, fun index before => by rw [adds.parent, if_neg (Nat.ne_of_lt before)],
      ⟨[attributes], stored.symm⟩⟩
  obtain ⟨nested, further⟩ := stacked.add adds continues
  refine ⟨continues, further, ?_, fun limits fits => ?_⟩
  · rw [stored, List.map_append, List.map_singleton, length_attributes (Except.ok_of_mapError stated), nameCount]
  · have fitting := stacked.fits continues adds.size stored nested fits
    refine (Limits.Decides.check limits .depth _).bind (fun shallow => ?_) fun all => (fitting.mp all).1
    refine (Limits.Decides.always named).bind (fun _ => ?_) fun _ => trivial
    refine (Limits.Decides.always stated).bind (fun _ => ?_) fun _ => trivial
    refine (Limits.Decides.check limits .attributes _).bind (fun few => ?_) fun all => (fitting.mp all).2
    exact Or.inl ⟨fitting.mpr ⟨shallow, few⟩, added⟩

def readToken (limits : Limits) (document : Document) (opened : List Nat) :
    Xml.Token → Except Error (Document × List Nat)
  | .start tag => do
    let (index, later) ← document.addTag limits opened tag
    return (later, index :: opened)
  | .empty tag => do
    let (_, later) ← document.addTag limits opened tag
    return (later, opened)
  | .close => return (document, opened.tail)
  | .text raw =>
    match opened with
    | [] => return (document, opened)
    | index :: _ => do
      let text ← (Xml.expand raw).mapError fun fault => Error.xml (.text fault)
      return (document.appendText index text, opened)
  | .cdata raw =>
    match opened with
    | [] => return (document, opened)
    | index :: _ => return (document.appendText index (Utf8.decodeLossy raw), opened)
  | .fault offset fault => .error (.xml (.token offset fault))

theorem readTokens_cons (limits : Limits) (document : Document) (opened : List Nat) (token : Xml.Token)
    (tokens : List Xml.Token) :
    document.readTokens limits opened (token :: tokens) =
      document.readToken limits opened token >>= fun (later, inner) => later.readTokens limits inner tokens := by
  cases token with
  | start tag | empty tag =>
    rw [readTokens, readToken]
    cases document.addTag limits opened tag <;> rfl
  | close => rfl
  | text raw =>
    cases opened with
    | nil => rfl
    | cons index opened =>
      rw [readTokens, readToken]
      cases (Xml.expand raw).mapError fun fault => Error.xml (.text fault) <;> rfl
  | cdata raw => cases opened <;> rfl
  | fault offset fault => rfl

theorem readToken_reads (stacked : document.Stacked opened)
    (read : document.readToken granted opened token = .ok (later, inner)) :
    document.Reads later inner ((tagOf token).toList.map nameCount) (document.readToken · opened token)
    (later, inner) := by
  have still {index : Nat} {text : String} {read : Limits → Except Error (Document × List Nat)}
      (same : ∀ limits, read limits = .ok (document.appendText index text, opened)) :
      document.Reads (document.appendText index text) opened [] read (document.appendText index text, opened) := by
    obtain ⟨size, parent, stored⟩ := @appendText_keeps document index text
    exact .quiet stacked size parent stored List.suffix_rfl same
  cases token with
  | start tag =>
    obtain ⟨⟨index, later⟩, tagged, rest⟩ := Except.ok_of_bind read
    cases rest
    have reads := addTag_reads stacked tagged
    exact reads.bind (.quiet reads.stacked rfl rfl rfl List.suffix_rfl fun _ => rfl)
  | empty tag =>
    obtain ⟨⟨index, later⟩, tagged, rest⟩ := Except.ok_of_bind read
    cases rest
    have reads := addTag_reads stacked tagged
    exact reads.bind (.quiet reads.stacked rfl rfl rfl (List.suffix_cons _ _) fun _ => rfl)
  | close =>
    cases read
    exact .quiet stacked rfl rfl rfl (List.tail_suffix _) fun _ => rfl
  | text raw =>
    cases opened with
    | nil =>
      cases read
      exact .quiet stacked rfl rfl rfl List.suffix_rfl fun _ => rfl
    | cons index opened =>
      obtain ⟨text, expanded, rest⟩ := Except.ok_of_bind read
      cases rest
      refine still fun limits => ?_
      rw [readToken, expanded]
      rfl
  | cdata raw =>
    cases opened with
    | nil =>
      cases read
      exact .quiet stacked rfl rfl rfl List.suffix_rfl fun _ => rfl
    | cons index opened =>
      cases read
      exact still fun _ => rfl
  | fault offset fault => cases read

theorem readTokens_reads {tokens : List Xml.Token} (stacked : document.Stacked opened)
    (read : document.readTokens granted opened tokens = .ok later) :
    document.Reads later [] ((tokens.filterMap tagOf).map nameCount) (document.readTokens · opened tokens) later := by
  induction tokens generalizing document opened with
  | nil =>
    unfold readTokens at read
    split at read
    · next closed =>
      obtain rfl := Except.ok.inj read
      exact .quiet stacked rfl rfl rfl List.nil_suffix fun _ => if_pos closed
    · cases read
  | cons token tokens ih =>
    rw [readTokens_cons] at read
    obtain ⟨⟨middle, inner⟩, first, rest⟩ := Except.ok_of_bind read
    have one := readToken_reads stacked first
    have names : ((token :: tokens).filterMap tagOf).map nameCount =
        (tagOf token).toList.map nameCount ++ (tokens.filterMap tagOf).map nameCount := by
      rw [List.filterMap_cons]
      cases tagOf token <;> rfl
    rw [names]
    simp only [readTokens_cons]
    refine one.bind ?_
    exact ih one.stacked rest

end Steps

end Changes

/-- What is read within some limits is read within others if it is not too long and fits, and refused by them if not. -/
theorem read_decides {granted : Limits} {bytes : List UInt8} {document : Document}
    (read : Document.read granted bytes = .ok document) :
    document.stored.map List.length = ((Xml.tokens bytes).filterMap tagOf).map nameCount ∧
      ∀ limits : Limits, limits.Decides (bytes.length ≤ limits.size ∧ document.Fits limits)
      (Document.read limits bytes) document := by
  obtain ⟨_, _, rest⟩ := Except.ok_of_bind read
  have start : ({} : Document).Stacked [] :=
    ⟨fun index inside => absurd inside (Nat.not_lt_zero index),
      fun index rest suffix => by cases List.suffix_nil.mp suffix⟩
  have empty (limits : Limits) : ({} : Document).Fits limits :=
    ⟨fun index depth nested => absurd nested.inside (Nat.not_lt_zero index), by simp [Document.stored]⟩
  have reads := readTokens_reads start rest
  refine ⟨reads.counts, fun limits => ?_⟩
  refine (Limits.Decides.check limits .size _).bind (fun short => ?_) And.left
  exact (reads.decides limits (empty limits)).congr (iff_and_self.mpr fun _ => short)

end Document
end SchemaClasses
