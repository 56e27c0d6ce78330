import SchemaClasses.Text.Quoted
import Mathlib.Algebra.Order.Group.Nat
import Mathlib.Data.Nat.Digits.Defs

/-! String literals as generated code is read. A text in quotes stands for itself, whatever its characters are. -/

namespace SchemaClasses.Text

/-- The character that stands behind a backslash for another. -/
def escaped? : Char → Option Char
  | '0' => some '\x00'
  | 't' => some '\t'
  | 'n' => some '\n'
  | 'r' => some '\r'
  | '"' => some '"'
  | '\\' => some '\\'
  | _ => none

def hexValue? (c : Char) : Option Nat :=
  if c.isDigit then some (c.toNat - '0'.toNat)
  else if 'a' ≤ c && c ≤ 'f' then some (c.toNat - 'a'.toNat + 10)
  else if 'A' ≤ c && c ≤ 'F' then some (c.toNat - 'A'.toNat + 10)
  else none

/-- Where a reader is in a literal: between two characters, behind a backslash, in front of the braces with the
number of a character, or in them with so many digits read. -/
inductive Phase where
  | plain
  | escape
  | brace
  | code (count value : Nat)
  deriving DecidableEq, Repr

/-- The character with the number that was written in so many digits. -/
def coded? (count value : Nat) : Option Char :=
  if 0 < count ∧ count ≤ 6 ∧ value.isValidChar then some (Char.ofNat value) else none

def push (c : Char) : Option (List Char × List Char) → Option (List Char × List Char) :=
  Option.map fun (value, rest) => (c :: value, rest)

/-- Reads a literal up to its closing quote, and leaves what follows. -/
def literal : Phase → List Char → Option (List Char × List Char)
  | _, [] => none
  | .plain, c :: text =>
    if c = '"' then some ([], text)
    else if c = '\\' then literal .escape text
    else push c (literal .plain text)
  | .escape, c :: text =>
    if c = 'u' then literal .brace text else escaped? c >>= fun meant => push meant (literal .plain text)
  | .brace, c :: text => if c = '\x7b' then literal (.code 0 0) text else none
  | .code count value, c :: text =>
    if c = '\x7d' then coded? count value >>= fun meant => push meant (literal .plain text)
    else hexValue? c >>= fun digit => literal (.code (count + 1) (16 * value + digit)) text

theorem push_eq_some {c : Char} {read : Option (List Char × List Char)} {value rest : List Char}
    (reads : push c read = some (value, rest)) :
    ∃ behind, read = some (behind, rest) := by
  obtain ⟨⟨behind, _⟩, read, same⟩ := Option.map_eq_some_iff.mp reads
  cases same
  exact ⟨behind, read⟩

theorem literal_shorter {phase : Phase} {text value rest : List Char}
    (reads : literal phase text = some (value, rest)) :
    rest.length < text.length := by
  induction text generalizing phase value with
  | nil => cases phase <;> cases reads
  | cons c text ih =>
    refine Nat.lt_succ_iff.mpr ?_
    have pushed {meant : Char} (reads : push meant (literal .plain text) = some (value, rest)) :
        rest.length ≤ text.length := by
      obtain ⟨_, reads⟩ := push_eq_some reads
      exact (ih reads).le
    have meaning {meant : Option Char}
      (reads : (meant >>= fun meant => push meant (literal .plain text)) = some (value, rest)) :
        rest.length ≤ text.length := by
      obtain ⟨_, _, reads⟩ := Option.bind_eq_some_iff.mp reads
      exact pushed reads
    cases phase with
    | plain =>
      rw [literal] at reads
      split_ifs at reads
      · cases reads
        exact le_rfl
      · exact (ih reads).le
      · exact pushed reads
    | escape =>
      rw [literal] at reads
      split_ifs at reads
      · exact (ih reads).le
      · exact meaning reads
    | brace =>
      rw [literal] at reads
      split_ifs at reads
      exact (ih reads).le
    | code =>
      rw [literal] at reads
      split_ifs at reads
      · exact meaning reads
      · obtain ⟨_, _, reads⟩ := Option.bind_eq_some_iff.mp reads
        exact (ih reads).le

theorem hexValue?_digitChar : ∀ digit < 16, hexValue? digit.digitChar = some digit ∧ digit.digitChar ≠ '\x7d' := by
  decide

theorem literal_code (n : Nat) (text : List Char) :
    literal (.code 0 0) (hexDigits n ++ text) = literal (.code (hexDigits n).length n) text := by
  have step (count value : Nat) {digit : Nat} (small : digit < 16) (text : List Char) :
      literal (.code count value) (digit.digitChar :: text) =
          literal (.code (count + 1) (16 * value + digit)) text := by
    obtain ⟨value, different⟩ := hexValue?_digitChar digit small
    rw [literal, if_neg different, value]
    rfl
  rw [hexDigits]
  induction n using Nat.base_induction 16 generalizing text with
  | hb => decide
  | single m small =>
    rw [Nat.toDigits_of_lt_base small, List.singleton_append, step 0 0 small, Nat.mul_zero, Nat.zero_add, Nat.zero_add,
      List.length_singleton]
  | digit m k small positive ih =>
    rw [← Nat.toDigits_append_toDigits (by decide) positive small, Nat.toDigits_of_lt_base small, List.append_assoc, ih,
      List.singleton_append, step _ _ small, List.length_append, List.length_singleton]

theorem coded?_toNat (c : Char) : coded? (hexDigits c.toNat).length c.toNat = some c := by
  have small : c.toNat < Nat.pow 16 6 := by
    rcases c.valid with low | ⟨_, high⟩
    · exact Nat.lt_trans low (by decide)
    · exact Nat.lt_trans high (by decide)
  have few : (hexDigits c.toNat).length ≤ 6 := (Nat.length_toDigits_le_iff (by decide) (by decide)).mpr small
  have filled : 0 < (hexDigits c.toNat).length := List.length_pos_iff.mpr Nat.toDigits_ne_nil
  rw [coded?, if_pos ⟨filled, few, c.valid⟩, Char.ofNat_toNat]

theorem literal_escapeQuoted (c : Char) (text : List Char) :
    literal .plain (escapeQuoted c ++ text) = push c (literal .plain text) := by
  unfold escapeQuoted
  split_ifs with zero tab line carriage escapes printable
  · rw [zero]; rfl
  · rw [tab]; rfl
  · rw [line]; rfl
  · rw [carriage]; rfl
  · simp only [Bool.or_eq_true, decide_eq_true_eq] at escapes
    rcases escapes with rfl | rfl <;> rfl
  · simp only [Bool.or_eq_true, decide_eq_true_eq, not_or] at escapes
    rw [List.singleton_append, literal, if_neg escapes.1, if_neg escapes.2]
  · have opened : literal .plain (['\\', 'u', '\x7b'] ++ hexDigits c.toNat ++ ['\x7d'] ++ text) =
        literal (.code 0 0) (hexDigits c.toNat ++ '\x7d' :: text) := by
      rw [List.append_assoc, List.append_assoc]
      rfl
    rw [opened, literal_code, literal, if_pos rfl, coded?_toNat]
    rfl

/-- A text in quotes is read back. -/
theorem literal_quoted (value text : List Char) :
    literal .plain (value.flatMap escapeQuoted ++ '"' :: text) = some (value, text) := by
  induction value with
  | nil => rfl
  | cons c value ih =>
    rw [List.flatMap_cons, List.append_assoc, literal_escapeQuoted, ih]
    rfl

end SchemaClasses.Text
