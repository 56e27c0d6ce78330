import Mathlib
import SchemaClasses.Json
import SchemaClasses.Proofs.Text.Literals

/-! JSON texts are unambiguous. No quote stands bare inside a string, and the first character of a value tells
what kind of value it is. So a text that begins with one value begins with no other, and what is left behind the
value is known. -/

namespace SchemaClasses.Json
open Text (hexValue? hexValue?_digitChar)

section Strings
variable {c : Char} {text rest : List Char}

/-- The character that stands behind a backslash for another. -/
def escaped? : Char → Option Char
  | '"' => some '"'
  | '\\' => some '\\'
  | '/' => some '/'
  | 'b' => some '\x08'
  | 'f' => some '\x0c'
  | 'n' => some '\n'
  | 'r' => some '\r'
  | 't' => some '\t'
  | _ => none

/-- The character with the number that is written in four digits. Halves of surrogate pairs are none. -/
def coded? (first second third fourth : Char) : Option Char := do
  let high := 16 * (← hexValue? first) + (← hexValue? second)
  let low := 16 * (← hexValue? third) + (← hexValue? fourth)
  if (256 * high + low).isValidChar then some (Char.ofNat (256 * high + low)) else none

/-- Reads one character of a string, and leaves what follows it. At the closing quote there is none. -/
def character? : List Char → Option (Char × List Char)
  | '\\' :: 'u' :: first :: second :: third :: fourth :: rest => (coded? first second third fourth).map (·, rest)
  | '\\' :: c :: rest => (escaped? c).map (·, rest)
  | '"' :: _ => none
  | c :: rest => some (c, rest)
  | [] => none

theorem hexByte_control : ∀ n < 0x20, hexByte n = [(n / 16).digitChar, (n % 16).digitChar] := by
  decide

theorem coded?_control (control : c.toNat < 0x20) :
    coded? '0' '0' (c.toNat / 16).digitChar (c.toNat % 16).digitChar = some c := by
  have high := (hexValue?_digitChar (c.toNat / 16) (by omega)).1
  have low := (hexValue?_digitChar (c.toNat % 16) (by omega)).1
  have number : 256 * (16 * 0 + 0) + (16 * (c.toNat / 16) + c.toNat % 16) = c.toNat := by omega
  have zero : hexValue? '0' = some 0 := rfl
  have valid : c.toNat.isValidChar := c.valid
  simp only [coded?, zero, high, low, Option.bind_eq_bind, Option.bind_some, number]
  rw [if_pos valid, Char.ofNat_toNat]

theorem character?_escape (c : Char) (rest : List Char) : character? (escape c ++ rest) = some (c, rest) := by
  unfold escape
  split_ifs with quote backslash back tab line page carriage control
  · rw [quote]; rfl
  · rw [backslash]; rfl
  · rw [back]; rfl
  · rw [tab]; rfl
  · rw [line]; rfl
  · rw [page]; rfl
  · rw [carriage]; rfl
  · rw [hexByte_control _ control]
    change (coded? '0' '0' (c.toNat / 16).digitChar (c.toNat % 16).digitChar).map (·, rest) = some (c, rest)
    rw [coded?_control control]
    rfl
  · rw [List.singleton_append, character?.eq_def]
    split <;> simp_all

theorem body_append_inj {chars others s t : List Char}
    (same : chars.flatMap escape ++ '"' :: s = others.flatMap escape ++ '"' :: t) : chars = others ∧ s = t := by
  have ends (rest : List Char) : character? ('"' :: rest) = none := rfl
  induction chars generalizing others with
  | nil =>
    cases others with
    | nil => exact ⟨rfl, (List.cons.inj same).2⟩
    | cons d others =>
      have reads := congrArg character? same
      rw [List.flatMap_cons, List.append_assoc, character?_escape, List.flatMap_nil, List.nil_append, ends] at reads
      cases reads
  | cons c chars ih =>
    have reads := congrArg character? same
    rw [List.flatMap_cons, List.append_assoc, character?_escape] at reads
    cases others with
    | nil =>
      rw [List.flatMap_nil, List.nil_append, ends] at reads
      cases reads
    | cons d others =>
      rw [List.flatMap_cons, List.append_assoc, character?_escape] at reads
      obtain ⟨rfl, behind⟩ := Prod.mk.inj (Option.some.inj reads)
      obtain ⟨rfl, rest⟩ := ih behind
      exact ⟨rfl, rest⟩

theorem quote_append_inj {a b : String} {s t : List Char} (same : quote a ++ s = quote b ++ t) : a = b ∧ s = t := by
  have body : a.toList.flatMap escape ++ '"' :: s = b.toList.flatMap escape ++ '"' :: t := by
    simpa [quote] using same
  obtain ⟨chars, rest⟩ := body_append_inj body
  exact ⟨String.toList_inj.mp chars, rest⟩

end Strings

section Numbers
variable {n : Int}

def isNumeral (c : Char) : Bool :=
  c = '-' || c.isDigit

/-- What follows does not go on with a number. -/
def Ends (rest : List Char) : Prop :=
  rest.takeWhile isNumeral = []

theorem isNumeral_of_mem {c : Char} (listed : c ∈ (toString n).toList) : isNumeral c := by
  have digits {m : Nat} (listed : c ∈ m.repr.toList) : isNumeral c := by
    rw [Nat.toList_repr] at listed
    rw [isNumeral, Nat.isDigit_of_mem_toDigits (by decide) le_rfl listed, Bool.or_true]
  change c ∈ n.repr.toList at listed
  rw [Int.repr_eq_if] at listed
  split_ifs at listed
  · exact digits listed
  · rw [String.toList_append, List.mem_append] at listed
    rcases listed with sign | listed
    · rw [List.mem_singleton.mp sign]
      rfl
    · exact digits listed

theorem toList_toString_ne_nil : (toString n).toList ≠ [] := by
  have digits (m : Nat) : m.repr.toList ≠ [] := by
    rw [Nat.toList_repr]
    exact Nat.toDigits_ne_nil
  change n.repr.toList ≠ []
  rw [Int.repr_eq_if]
  split_ifs
  · exact digits _
  · simp

theorem number_append_inj {m n : Int} {s t : List Char} (left : Ends s) (right : Ends t)
    (same : (toString m).toList ++ s = (toString n).toList ++ t) : m = n ∧ s = t := by
  have cut {n : Int} {rest : List Char} (ends : Ends rest) :
      ((toString n).toList ++ rest).takeWhile isNumeral = (toString n).toList := by
    rw [List.takeWhile_append_of_pos fun c listed => isNumeral_of_mem listed, ends, List.append_nil]
  have digits : (toString m).toList = (toString n).toList := by rw [← cut left, same, cut right]
  rw [digits] at same
  exact ⟨Int.repr_injective (String.toList_inj.mp digits), List.append_cancel_left same⟩

end Numbers

section Lists
variable {α : Type} {write : α → List Char} {close : Char} {items others : List α} {s t : List Char}

/-- What begins with the text of the item begins with that of no other. -/
def Determined (write : α → List Char) (item : α) : Prop :=
  ∀ {other : α} {s t : List Char}, Ends s → Ends t → write item ++ s = write other ++ t → item = other ∧ s = t

/-- What stands behind an item in brackets: the others, each with a comma in front, and the closing bracket. -/
def behind (write : α → List Char) (close : Char) (items : List α) : List Char :=
  items.flatMap (fun item => ',' :: write item) ++ [close]

def listed (write : α → List Char) (close : Char) : List α → List Char
  | [] => [close]
  | item :: rest => write item ++ behind write close rest

/-- A character that ends a list of items and no item begins with. -/
structure Closes (write : α → List Char) (close : Char) : Prop where
  other : close ≠ ','
  ends : isNumeral close = false
  apart : ∀ item rest text, write item ++ rest ≠ close :: text

theorem Closes.ends_behind (closes : Closes write close) : Ends (behind write close items ++ s) := by
  cases items with
  | nil => exact List.takeWhile_cons_of_neg (by simp [closes.ends])
  | cons => rfl

theorem behind_append_inj (closes : Closes write close) (determined : ∀ item ∈ items, Determined write item)
    (same : behind write close items ++ s = behind write close others ++ t) : items = others ∧ s = t := by
  induction items generalizing others with
  | nil =>
    cases others with
    | nil => exact ⟨rfl, (List.cons.inj same).2⟩
    | cons => exact absurd (List.cons.inj same).1 closes.other
  | cons item items ih =>
    obtain ⟨first, determined⟩ := List.forall_mem_cons.mp determined
    cases others with
    | nil => exact absurd (List.cons.inj same).1 closes.other.symm
    | cons other others =>
      have texts : write item ++ (behind write close items ++ s) = write other ++ (behind write close others ++ t) := by
        simpa [behind] using same
      obtain ⟨rfl, others⟩ := first closes.ends_behind closes.ends_behind texts
      obtain ⟨rfl, rest⟩ := ih determined others
      exact ⟨rfl, rest⟩

theorem listed_append_inj (closes : Closes write close) (determined : ∀ item ∈ items, Determined write item)
    (same : listed write close items ++ s = listed write close others ++ t) : items = others ∧ s = t := by
  cases items <;> cases others
  case nil.nil => exact ⟨rfl, (List.cons.inj same).2⟩
  case nil.cons other others =>
    rw [listed, listed, List.append_assoc] at same
    exact (closes.apart _ _ _ same.symm).elim
  case cons.nil item items =>
    rw [listed, listed, List.append_assoc] at same
    exact (closes.apart _ _ _ same).elim
  case cons.cons item items other others =>
    obtain ⟨first, determined⟩ := List.forall_mem_cons.mp determined
    rw [listed, listed, List.append_assoc, List.append_assoc] at same
    obtain ⟨rfl, others⟩ := first closes.ends_behind closes.ends_behind same
    obtain ⟨rfl, rest⟩ := behind_append_inj closes determined others
    exact ⟨rfl, rest⟩

end Lists

section Values
variable {value other : Json} {s t : List Char}

inductive Kind where
  | null
  | number
  | string
  | array
  | object

def kind : Json → Kind
  | .null => .null
  | .number _ => .number
  | .string _ => .string
  | .array _ => .array
  | .object _ => .object

/-- The kind of the values whose texts begin with a character. -/
def leads? (c : Char) : Option Kind :=
  if isNumeral c then some .number
  else match c with
    | 'n' => some .null
    | '"' => some .string
    | '[' => some .array
    | '\x7b' => some .object
    | _ => none

theorem leads?_compactChars (value : Json) (rest : List Char) :
    (compactChars value ++ rest).head? >>= leads? = some value.kind := by
  cases value with
  | number n =>
    obtain ⟨c, digits, chars⟩ := List.exists_cons_of_ne_nil (toList_toString_ne_nil (n := n))
    have numeral : isNumeral c := isNumeral_of_mem (n := n) (chars ▸ List.mem_cons_self)
    rw [compactChars, chars]
    exact if_pos numeral
  | null | string | array | object => rfl

theorem kind_eq (same : compactChars value ++ s = compactChars other ++ t) : value.kind = other.kind := by
  have leads := congrArg (fun text => text.head? >>= leads?) same
  simp only [leads?_compactChars] at leads
  exact Option.some.inj leads

theorem closes_items : Closes compactChars ']' where
  other := by decide
  ends := by decide
  apart value rest text same := by
    have leads := leads?_compactChars value rest
    rw [same] at leads
    cases leads

def memberChars : String × Json → List Char
  | (key, value) => quote key ++ ':' :: compactChars value

theorem closes_members : Closes memberChars '\x7d' where
  other := by decide
  ends := by decide
  apart _ _ _ same := absurd (List.cons.inj same).1 (by decide)

theorem compactItems_eq (items : List Json) : compactItems items = listed compactChars ']' items := by
  induction items with
  | nil => rfl
  | cons item items ih =>
    cases items with
    | nil => rfl
    | cons next rest =>
      rw [compactItems, ih]
      simp [listed, behind]

theorem compactMembers_eq (members : List (String × Json)) :
    compactMembers members = listed memberChars '\x7d' members := by
  induction members with
  | nil => rfl
  | cons member members ih =>
    cases members with
    | nil => rfl
    | cons next rest =>
      rw [compactMembers, ih]
      simp [listed, behind, memberChars]

theorem determined_member {member : String × Json} (determined : Determined compactChars member.2) :
    Determined memberChars member := by
  intro other s t left right same
  obtain ⟨key, value⟩ := member
  obtain ⟨name, wanted⟩ := other
  have texts : quote key ++ (':' :: compactChars value ++ s) = quote name ++ (':' :: compactChars wanted ++ t) := by
    simpa [memberChars] using same
  obtain ⟨rfl, values⟩ := quote_append_inj texts
  obtain ⟨rfl, rest⟩ := determined left right (List.cons.inj values).2
  exact ⟨rfl, rest⟩

theorem sizeOf_lt_of_mem {member : String × Json} {members : List (String × Json)} (among : member ∈ members) :
    sizeOf member.2 < sizeOf (Json.object members) := by
  have smaller := List.sizeOf_lt_of_mem among
  obtain ⟨key, value⟩ := member
  simp only [object.sizeOf_spec, Prod.mk.sizeOf_spec] at smaller ⊢
  omega

/-- A text that begins with one value begins with no other. -/
theorem determined : ∀ value : Json, Determined compactChars value
  | .null, other, s, t, _, _, same => by
    cases other <;> cases kind_eq same
    exact ⟨rfl, List.append_cancel_left same⟩
  | .number n, other, s, t, left, right, same => by
    cases other <;> cases kind_eq same
    obtain ⟨rfl, rest⟩ := number_append_inj left right same
    exact ⟨rfl, rest⟩
  | .string text, other, s, t, _, _, same => by
    cases other <;> cases kind_eq same
    obtain ⟨rfl, rest⟩ := quote_append_inj same
    exact ⟨rfl, rest⟩
  | .array items, other, s, t, _, _, same => by
    cases other <;> cases kind_eq same
    have texts := (List.cons.inj same).2
    rw [compactItems_eq, compactItems_eq] at texts
    obtain ⟨rfl, rest⟩ := listed_append_inj closes_items (fun item among => determined item) texts
    exact ⟨rfl, rest⟩
  | .object members, other, s, t, _, _, same => by
    cases other <;> cases kind_eq same
    have texts := (List.cons.inj same).2
    rw [compactMembers_eq, compactMembers_eq] at texts
    obtain ⟨rfl, rest⟩ := listed_append_inj closes_members (fun member among =>
      determined_member (determined member.2)) texts
    exact ⟨rfl, rest⟩
  termination_by value => sizeOf value
  decreasing_by
    · simp only [array.sizeOf_spec]
      have := List.sizeOf_lt_of_mem among
      omega
    · exact sizeOf_lt_of_mem among

theorem compact_injective : Function.Injective compact := by
  intro value other same
  have texts : compactChars value ++ [] = compactChars other ++ [] := by
    rw [List.append_nil, List.append_nil]
    exact String.ofList_injective same
  have ends : Ends [] := rfl
  exact (determined value ends ends texts).1

end Values

end SchemaClasses.Json
