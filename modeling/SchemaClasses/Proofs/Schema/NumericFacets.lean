import Mathlib.Data.Rat.Floor
import SchemaClasses.Proofs.Decimal
import SchemaClasses.Schema.Reading

/-! Numeric facets. A text is read as a whole number or, failing that, as a decimal that loses what stands
behind the point. Both ways lead to the number that the numeral stands for, rounded towards zero, wherever that
number has 64 bits. -/

namespace SchemaClasses

/-- A number rounded towards zero. -/
def truncation (number : ℚ) : Int :=
  if 0 ≤ number then ⌊number⌋ else ⌈number⌉

theorem truncation_intCast (n : Int) : truncation n = n := by
  rw [truncation, Int.floor_intCast, Int.ceil_intCast, ite_self]

namespace Digits

theorem int64_eq (n : Int) : int64 n = if -2 ^ 63 ≤ n ∧ n < 2 ^ 63 then some n else none := by
  unfold int64 fitsInt64
  refine if_congr ?_ rfl rfl
  simp only [Bool.and_eq_true, decide_eq_true_eq]
  omega

theorem number?_append_point {digits : List Char} (proper : ∀ c ∈ digits, c.isDigit) (rest : List Char) :
    number? (digits ++ '.' :: rest) = none := by
  have spoilt (read : Nat) : readFrom read (digits ++ '.' :: rest) = none := by
    induction digits generalizing read with
    | nil => rfl
    | cons c digits ih =>
      obtain ⟨digit, others⟩ := List.forall_mem_cons.mp proper
      rw [List.cons_append, readFrom, value?_of_isDigit digit]
      exact ih others _
  cases digits with
  | nil => rfl
  | cons => exact spoilt 0

theorem signed?_of_unsigned {text : List Char} (unsigned : ∀ c ∈ text, c.isDigit ∨ c = '.') :
    signed? text = number? text >>= fun n => int64 n := by
  unfold signed?
  split
  · exact absurd (unsigned '-' List.mem_cons_self) (by decide)
  · exact absurd (unsigned '+' List.mem_cons_self) (by decide)
  · rfl

end Digits

namespace Decimal

theorem truncate_eq (d : Decimal) : d.truncate = truncation d.value := by
  have positive := d.scale_pos
  rw [truncate, truncation, value]
  split
  · next upward =>
    have natural : 0 ≤ d.signed := by
      rw [le_div_iff₀ positive, zero_mul] at upward
      exact_mod_cast upward
    rw [Rat.floor_intCast_div_natCast, Int.tdiv_eq_ediv_of_nonneg natural]
  · next downward =>
    have negative : 0 ≤ -d.signed := by
      rw [not_le, div_lt_iff₀ positive, zero_mul] at downward
      have below : d.signed < 0 := by exact_mod_cast downward
      omega
    rw [Rat.ceil_intCast_div_natCast, ← Int.tdiv_eq_ediv_of_nonneg negative, Int.neg_tdiv, neg_neg]

/-- The whole part of the decimal that a text reads as, if it has 64 bits. -/
def whole? (text : List Char) : Option Int :=
  read? text >>= fun number => Digits.int64 number.truncate

end Decimal

namespace Numeral
variable {numeral : Numeral}

theorem value_whole (pointless : numeral.fraction = none) :
    numeral.value = ((if numeral.isNegative then -1 else 1) * Nat.ofDigitChars 10 numeral.whole 0 : Int) := by
  rw [value, pointless]
  cases numeral.isNegative <;> simp [Nat.ofDigitChars]

theorem signed_eq : Digits.signed? numeral.chars = if numeral.fraction =
      none then Digits.int64 (truncation numeral.value) else none := by
  have unsigned : Digits.signed? numeral.body = Digits.number? numeral.body >>= fun n => Digits.int64 n :=
    Digits.signed?_of_unsigned fun _ => Numeral.unsigned
  cases same : numeral.fraction with
  | none =>
    have body : numeral.body = numeral.whole := by rw [body, same, Option.map_none, Option.getD_none, List.append_nil]
    have begun : numeral.whole ≠ [] := by simpa [same] using numeral.some_digit
    have number : Digits.number? numeral.whole = some (Nat.ofDigitChars 10 numeral.whole 0) :=
      Digits.number?_eq numeral.whole_digits begun
    rw [if_pos rfl, value_whole same, truncation_intCast, chars, isNegative]
    rw [body, number] at unsigned
    rw [body]
    cases numeral.sign with
    | none => exact unsigned.trans (by simp)
    | plus => exact (congrArg (· >>= _) number).trans (by simp)
    | minus => exact (congrArg (· >>= _) number).trans (by simp)
  | some digits =>
    have body : numeral.body = numeral.whole ++ '.' :: digits := by rw [body, same]; rfl
    have number : Digits.number? numeral.body = none := body ▸ Digits.number?_append_point numeral.whole_digits digits
    rw [if_neg (Option.some_ne_none digits), chars]
    rw [number] at unsigned
    cases numeral.sign with
    | none => exact unsigned
    | plus => exact congrArg (· >>= _) number
    | minus => exact congrArg (· >>= _) number

/-- A numeral of at most 28 digits gives the whole part of its number. -/
theorem whole_eq (few : numeral.digits.length ≤ 28) :
    Decimal.whole? numeral.chars = Digits.int64 (truncation numeral.value) := by
  rw [Decimal.whole?, read few, Option.bind_eq_bind, Option.bind_some, Decimal.truncate_eq, decimal_value]

theorem chars_ne_nil : numeral.chars ≠ [] := by
  intro none
  obtain ⟨_, body⟩ := List.append_eq_nil_iff.mp none
  obtain ⟨whole, fraction⟩ := List.append_eq_nil_iff.mp body
  apply numeral.some_digit
  rw [whole]
  cases same : numeral.fraction with
  | none => rfl
  | some digits =>
    rw [same] at fraction
    cases fraction

end Numeral

namespace Reading
variable {tree : Tree} {facet : NumericFacet} {numeral : Numeral}

/-- What is lost behind a point is reported, and so is a number that has more than 64 bits. -/
theorem numericFacet_eq (stated : (tree.childText? facet.tag).map Text.trim = some (String.ofList numeral.chars))
    (few : numeral.digits.length ≤ 28) : numericFacet tree facet =
      match Digits.int64 (truncation numeral.value) with
      | some n => (some n, if numeral.fraction =
        none then [] else [.truncatedFacet facet.tag (String.ofList numeral.chars) n])
      | none => (none, [.ignoredFacet facet.tag (String.ofList numeral.chars)]) := by
  have whole := Numeral.whole_eq few
  unfold numericFacet
  rw [stated]
  split
  · next absent => cases absent
  · next empty => exact absurd (String.ofList_eq_empty_iff.mp (Option.some.inj empty)) Numeral.chars_ne_nil
  · next value _ same =>
    obtain rfl := Option.some.inj same
    rw [String.toList_ofList, Numeral.signed_eq]
    rw [Decimal.whole?] at whole
    rw [whole]
    cases Digits.int64 (truncation numeral.value) with
    | none => rw [ite_self]
    | some n => by_cases pointless : numeral.fraction = none <;> simp [pointless]

/-- A facet that is stated by a numeral of at most 28 digits has the number of the numeral, rounded towards
zero, if that has 64 bits, and is dropped otherwise. The two ways to read it agree wherever there is no point,
behind which the first has nothing, and the second reads every whole number as it is. -/
theorem numericFacet_exact (stated : (tree.childText? facet.tag).map Text.trim = some (String.ofList numeral.chars))
    (few : numeral.digits.length ≤ 28) :
    (numericFacet tree facet).1 =
        (if -2 ^ 63 ≤ truncation numeral.value ∧ truncation numeral.value < 2 ^ 63 then
          some (truncation numeral.value) else none) ∧
      Digits.signed? numeral.chars = (if numeral.fraction = none then Decimal.whole? numeral.chars else none) ∧
      ∀ n : Int, numeral.value = n → Decimal.whole? numeral.chars = Digits.int64 n := by
  refine ⟨?_, ?_, fun n same => ?_⟩
  · rw [numericFacet_eq stated few, ← Digits.int64_eq]
    cases Digits.int64 (truncation numeral.value) <;> rfl
  · rw [Numeral.signed_eq, Numeral.whole_eq few]
  · rw [Numeral.whole_eq few, same, truncation_intCast]

end Reading

/-- A numeral of 28 digits that stands for less than the least number of 64 bits, but is rounded to it. -/
def Numeral.least : Numeral where
  sign := .minus
  whole := ['9', '2', '2', '3', '3', '7', '2', '0', '3', '6', '8', '5', '4', '7', '7', '5', '8', '0', '8']
  fraction := some ['9', '9', '9', '9', '9', '9', '9', '9', '9']
  whole_digits := List.all_eq_true.mp (by decide)
  fraction_digits := List.all_eq_true.mp (by decide)
  some_digit := by decide

/-- A restriction with a bound that is the least number of 64 bits once its fraction is lost. -/
def Tree.bounded : Tree :=
  .node 0 { name := "restriction" } [
    .node 1 { name := "minInclusive", attributes := [("value", " -9223372036854775808.999999999 ")] } []]

theorem Reading.numericFacet_least :
    (Tree.bounded.childText? (NumericFacet.value .minInclusive).tag).map Text.trim =
      some (String.ofList Numeral.least.chars) ∧
      Numeral.least.digits.length ≤ 28 ∧
      (numericFacet .bounded (.value .minInclusive)).1 = some (-2 ^ 63) := by
  have stated : (Tree.bounded.childText? (NumericFacet.value .minInclusive).tag).map Text.trim =
      some (String.ofList Numeral.least.chars) := by
    decide
  have few : Numeral.least.digits.length ≤ 28 := by decide
  have least : truncation Numeral.least.value = -2 ^ 63 := by
    rw [← Numeral.decimal_value, ← Decimal.truncate_eq]
    decide
  refine ⟨stated, few, ?_⟩
  rw [(numericFacet_exact stated few).1, least]
  decide

end SchemaClasses
