import SchemaClasses.Decimal
import Mathlib.Algebra.Order.Field.Rat
import Mathlib.Tactic.FieldSimp
import Mathlib.Tactic.Positivity
import Mathlib.Tactic.Ring

/-! Decimal numerals. A numeral of at most 28 digits fits into a decimal number, digit by digit, so nothing of
it is rounded when it is read. -/

namespace SchemaClasses

namespace Digits
variable {digits : List Char}

theorem value?_of_isDigit {c : Char} (digit : c.isDigit) : value? c = some (c.toNat - '0'.toNat) := if_pos digit

theorem readFrom_eq (proper : ∀ c ∈ digits, c.isDigit) (read : Nat) :
    readFrom read digits = some (Nat.ofDigitChars 10 digits read) := by
  induction digits generalizing read with
  | nil => rfl
  | cons c digits ih =>
    obtain ⟨digit, others⟩ := List.forall_mem_cons.mp proper
    rw [readFrom, value?_of_isDigit digit, Option.bind_eq_bind, Option.bind_some, ih others, Nat.ofDigitChars_cons]

theorem number?_eq (proper : ∀ c ∈ digits, c.isDigit) (some : digits ≠ []) :
    number? digits = .some (Nat.ofDigitChars 10 digits 0) := by
  cases digits with
  | nil => exact absurd rfl some
  | cons c digits => exact readFrom_eq proper 0

theorem le_ofDigitChars (read : Nat) : read ≤ Nat.ofDigitChars 10 digits read := by
  induction digits generalizing read with
  | nil => exact le_rfl
  | cons c digits ih =>
    rw [Nat.ofDigitChars_cons]
    exact le_trans (by omega) (ih _)

theorem tenTo_succ (count : Nat) : tenTo (count + 1) = 10 * tenTo count := by
  rw [tenTo, tenTo, Nat.pow_eq, Nat.pow_eq, pow_succ, mul_comm]

theorem tenTo_pos (count : Nat) : 0 < tenTo count := Nat.pow_pos (by decide)

theorem ofDigitChars_eq (read : Nat) :
    Nat.ofDigitChars 10 digits read = read * tenTo digits.length + Nat.ofDigitChars 10 digits 0 := by
  induction digits generalizing read with
  | nil => simp [Nat.ofDigitChars, tenTo]
  | cons c digits ih =>
    rw [Nat.ofDigitChars_cons, Nat.ofDigitChars_cons, ih, ih (10 * 0 + _), List.length_cons, tenTo_succ]
    ring

theorem ofDigitChars_lt (proper : ∀ c ∈ digits, c.isDigit) : Nat.ofDigitChars 10 digits 0 < tenTo digits.length := by
  induction digits with
  | nil => decide
  | cons c digits ih =>
    obtain ⟨digit, others⟩ := List.forall_mem_cons.mp proper
    have small : c.toNat - '0'.toNat ≤ 9 := by
      simp only [Char.isDigit, Bool.and_eq_true, decide_eq_true_eq] at digit
      have upper : c.toNat ≤ '9'.toNat := digit.2
      have point : '9'.toNat = '0'.toNat + 9 := rfl
      omega
    have rest := ih others
    rw [Nat.ofDigitChars_cons, Nat.mul_zero, Nat.zero_add, ofDigitChars_eq, List.length_cons, tenTo_succ]
    have first : (c.toNat - '0'.toNat) * tenTo digits.length ≤ 9 * tenTo digits.length := Nat.mul_le_mul_right _ small
    omega

end Digits

/-- The sign in front of a numeral, if there is one. -/
inductive Numeral.Sign where
  | none
  | plus
  | minus
  deriving DecidableEq, Repr

/-- A decimal numeral: digits and perhaps a point, behind the sign. -/
structure Numeral where
  sign : Numeral.Sign
  whole : List Char
  /-- What stands behind the point, if there is one. -/
  fraction : Option (List Char)
  whole_digits : ∀ c ∈ whole, c.isDigit
  fraction_digits : ∀ c ∈ fraction.getD [], c.isDigit
  some_digit : whole ++ fraction.getD [] ≠ []

namespace Numeral
variable (numeral : Numeral)

def Sign.chars : Sign → List Char
  | none => []
  | plus => ['+']
  | minus => ['-']

def digits : List Char := numeral.whole ++ numeral.fraction.getD []

def body : List Char :=
  numeral.whole ++ (numeral.fraction.map ('.' :: ·)).getD []

def chars : List Char := numeral.sign.chars ++ numeral.body

def scale : Nat := (numeral.fraction.getD []).length

def isNegative : Bool := numeral.sign = .minus

def value : ℚ :=
  (if numeral.isNegative then -1 else 1) *
    (Nat.ofDigitChars 10 numeral.whole 0 +
      Nat.ofDigitChars 10 (numeral.fraction.getD []) 0 / Digits.tenTo numeral.scale)

theorem proper : ∀ c ∈ numeral.digits, c.isDigit := by
  intro c listed
  exact (List.mem_append.mp listed).elim (numeral.whole_digits c) (numeral.fraction_digits c)

end Numeral

namespace Decimal

def value (d : Decimal) : ℚ := d.signed / Digits.tenTo d.scale

theorem scale_pos (d : Decimal) : (0 : ℚ) < Digits.tenTo d.scale := Nat.cast_pos.mpr (Digits.tenTo_pos _)

theorem signed_lt_iff {d : Decimal} {n : Int} : d.signed < n * Digits.tenTo d.scale ↔ d.value < n := by
  rw [value, div_lt_iff₀ d.scale_pos]
  exact_mod_cast Iff.rfl

theorem lt_signed_iff {d : Decimal} {n : Int} : n * Digits.tenTo d.scale < d.signed ↔ (n : ℚ) < d.value := by
  rw [value, lt_div_iff₀ d.scale_pos]
  exact_mod_cast Iff.rfl

section Scan
variable {point begun : Bool} {mantissa scale : Nat} {digits rest : List Char}

/-- Digits are taken one by one while the mantissa and the scale have room for them. -/
theorem scan_append (proper : ∀ c ∈ digits, c.isDigit) (fits : Nat.ofDigitChars 10 digits mantissa ≤ maxMantissa)
    (room : point → scale + digits.length ≤ maxScale) : scan point begun mantissa scale (digits ++ rest) =
      scan point (begun || !digits.isEmpty) (Nat.ofDigitChars 10 digits mantissa)
      (if point then scale + digits.length else scale) rest := by
  induction digits generalizing begun mantissa scale with
  | nil => simp [Nat.ofDigitChars]
  | cons c digits ih =>
    obtain ⟨digit, others⟩ := List.forall_mem_cons.mp proper
    rw [Nat.ofDigitChars_cons] at fits ⊢
    have grown : 10 * mantissa + (c.toNat - '0'.toNat) ≤ maxMantissa := le_trans (Digits.le_ofDigitChars _) fits
    have free : (point && (scale = maxScale || maxMantissa < 10 * mantissa + (c.toNat - '0'.toNat))) = false := by
      cases point with
      | false => rfl
      | true =>
        have := room rfl
        rw [List.length_cons] at this
        simp only [Bool.true_and, Bool.or_eq_false_iff, decide_eq_false_iff_not]
        exact ⟨by omega, by omega⟩
    rw [List.cons_append, scan, Digits.value?_of_isDigit digit]
    simp only [free, Bool.false_eq_true, if_false, if_neg (Nat.not_lt.mpr grown)]
    rw [ih others fits]
    · cases point with
      | false => simp
      | true =>
        simp only [if_true, List.length_cons, List.isEmpty_cons, Bool.not_false, Bool.or_true, Bool.true_or]
        rw [Nat.add_right_comm, Nat.add_assoc]
    · rintro rfl
      have := room rfl
      rw [List.length_cons] at this
      simp only [if_true]
      omega

end Scan
end Decimal

namespace Numeral
variable (numeral : Numeral)

def decimal : Decimal where
  negative := numeral.isNegative
  mantissa := Nat.ofDigitChars 10 numeral.digits 0
  scale := numeral.scale

theorem decimal_value : numeral.decimal.value = numeral.value := by
  have positive := numeral.decimal.scale_pos
  rw [Decimal.value, Decimal.signed, value, decimal, digits, Nat.ofDigitChars_append, Digits.ofDigitChars_eq, scale]
  rw [decimal, scale] at positive
  cases numeral.isNegative <;> simp <;> field_simp

variable {numeral}

theorem mantissa_le (few : numeral.digits.length ≤ 28) :
    Nat.ofDigitChars 10 numeral.digits 0 ≤ Decimal.maxMantissa := by
  have bound := Digits.ofDigitChars_lt numeral.proper
  have most : Digits.tenTo numeral.digits.length ≤ Digits.tenTo 28 := Nat.pow_le_pow_right (by decide) few
  have room : Digits.tenTo 28 ≤ Decimal.maxMantissa := by decide
  omega

theorem scan_body (few : numeral.digits.length ≤ 28) :
    Decimal.scan false false 0 0 numeral.body = some (Nat.ofDigitChars 10 numeral.digits 0, numeral.scale) := by
  have fits := mantissa_le few
  obtain ⟨sign, whole, fraction, whole_digits, fraction_digits, some_digit⟩ := numeral
  simp only [digits, body, scale, Nat.ofDigitChars_append, List.length_append] at few fits ⊢
  have scanned (rest : List Char) : Decimal.scan false false 0 0 (whole ++ rest) =
      Decimal.scan false (!whole.isEmpty) (Nat.ofDigitChars 10 whole 0) 0 rest :=
    Decimal.scan_append whole_digits (le_trans (Digits.le_ofDigitChars _) fits) (by simp)
  rw [scanned]
  cases fraction with
  | none =>
    have begun : whole ≠ [] := by simpa using some_digit
    simp [Decimal.scan, begun, Nat.ofDigitChars]
  | some digits =>
    simp only [Option.map_some, Option.getD_some] at few fits fraction_digits some_digit ⊢
    have point (begun : Bool) (mantissa : Nat) (rest : List Char) :
        Decimal.scan false begun mantissa 0 ('.' :: rest) = Decimal.scan true begun mantissa 0 rest := rfl
    have behind : Decimal.scan true (!whole.isEmpty) (Nat.ofDigitChars 10 whole 0) 0 (digits ++ []) = _ :=
      Decimal.scan_append fraction_digits fits fun _ => by rw [Decimal.maxScale]; omega
    have begun : (!whole.isEmpty || !digits.isEmpty) = true := by
      cases whole with
      | nil => simpa using some_digit
      | cons => rfl
    rw [point, ← List.append_nil digits, behind, begun, Decimal.scan]
    simp

theorem unsigned {c : Char} (listed : c ∈ numeral.body) : c.isDigit ∨ c = '.' := by
  rcases List.mem_append.mp listed with whole | behind
  · exact Or.inl (numeral.whole_digits c whole)
  · have fraction := numeral.fraction_digits
    cases same : numeral.fraction with
    | none =>
      rw [same] at behind
      cases behind
    | some digits =>
      rw [same] at behind fraction
      exact (List.mem_cons.mp behind).elim Or.inr fun listed => Or.inl (fraction c listed)

theorem plain_body : Decimal.plain? numeral.body = Decimal.ofScan? false numeral.body := by
  unfold Decimal.plain?
  split
  · next same => exact absurd (unsigned (same ▸ List.mem_cons_self)) (by decide)
  · next same => exact absurd (unsigned (same ▸ List.mem_cons_self)) (by decide)
  · rfl

/-- A numeral of at most 28 digits is read as it is written. -/
theorem read (few : numeral.digits.length ≤ 28) : Decimal.read? numeral.chars = some numeral.decimal := by
  have scanned (negative : Bool) : Decimal.ofScan? negative numeral.body =
      some ⟨negative, Nat.ofDigitChars 10 numeral.digits 0, numeral.scale⟩ := by
    rw [Decimal.ofScan?, scan_body few, Option.map_some]
  have plain : Decimal.plain? numeral.chars = some numeral.decimal := by
    rw [chars, decimal, isNegative]
    cases numeral.sign with
    | none => exact plain_body.trans (scanned false)
    | plus => exact scanned false
    | minus => exact scanned true
  rw [Decimal.read?, plain]
  rfl

end Numeral

/-- What a text reads as, where that is exact: the number of a numeral that is not too long, or nothing. -/
inductive Decimal.Reads (text : List Char) : Option ℚ → Prop where
  | numeral (numeral : Numeral) (written : text = numeral.chars) (few : numeral.digits.length ≤ 28) :
      Reads text (some numeral.value)
  | unread (fails : Decimal.read? text = none) : Reads text none

theorem Decimal.Reads.read {text : List Char} {number : Option ℚ} (reads : Decimal.Reads text number) :
    (Decimal.read? text).map Decimal.value = number := by
  cases reads with
  | numeral numeral written few => rw [written, Numeral.read few, Option.map_some, Numeral.decimal_value]
  | unread fails => rw [fails, Option.map_none]

end SchemaClasses
