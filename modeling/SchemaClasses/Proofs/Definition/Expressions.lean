import SchemaClasses.Proofs.Definition.FacetChecks
import SchemaClasses.Proofs.Text.Literals

/-! Expressions of generated code that ask something of the text of an instance. They are read by the grammar of
the language that they are written in, so far as it is used, and evaluated as they are meant there. The text is
taken as it is, while the check for fraction digits leaves its outer blanks out. -/

namespace SchemaClasses

inductive Comparison where
  | equal
  | atLeast
  | atMost
  deriving DecidableEq, Repr

def Comparison.holds (first second : Nat) : Comparison → Bool
  | equal => first = second
  | atLeast => second ≤ first
  | atMost => first ≤ second

/-- What is asked of a text or of a part of it: that there is something, or how many characters there are. -/
inductive Test where
  | filled
  | count (comparison : Comparison) (limit : Nat)
  deriving DecidableEq, Repr

def Test.holds (text : List Char) : Test → Bool
  | filled => !text.isEmpty
  | count comparison limit => comparison.holds text.length limit

inductive Condition where
  | whole (test : Test)
  /-- Split at the separator the text is in two parts, and both tests hold of the second. -/
  | second (separator : Char) (first other : Test)
  | listed (values : List String)
  deriving DecidableEq, Repr

def Condition.holds (text : String) : Condition → Bool
  | whole test => test.holds text.toList
  | second separator first other =>
    match text.toList.splitOn separator with
    | [_, part] => first.holds part && other.holds part
    | _ => false
  | listed values => values.any (· == text)

/-- How generated code compares the number of characters with the limit. -/
def LengthBound.comparison : LengthBound → Comparison
  | exact => .equal
  | minimum => .atLeast
  | maximum => .atMost

namespace Reader

/-- What is left behind the word that the text begins with. -/
def expect (word : String) (text : List Char) : Option (List Char) :=
  text.dropPrefix? word.toList

def number (text : List Char) : Option (Nat × List Char) :=
  (Digits.number? (text.takeWhile Char.isDigit)).map fun value => (value, text.dropWhile Char.isDigit)

def comparison : List Char → Option (Comparison × List Char)
  | '=' :: '=' :: text => some (.equal, text)
  | '>' :: '=' :: text => some (.atLeast, text)
  | '<' :: '=' :: text => some (.atMost, text)
  | _ => none

/-- A test of the text that has the name. -/
def test (name : String) (text : List Char) : Option (Test × List Char) :=
  match text.head? with
  | some '!' => do
    let text ← expect "!" text
    let text ← expect name text
    let text ← expect ".is_empty()" text
    return (.filled, text)
  | _ => do
    let text ← expect name text
    let text ← expect ".chars().count() " text
    let (comparison, text) ← comparison text
    let text ← expect " " text
    let (limit, text) ← number text
    return (.count comparison limit, text)

/-- A character in quotes that is not written as an escape. -/
def character : List Char → Option (Char × List Char)
  | '\x27' :: c :: '\x27' :: text => if c = '\\' ∨ c = '\x27' then none else some (c, text)
  | _ => none

/-- Literals up to the closing bracket of an array. -/
def literals : List Char → Option (List String × List Char)
  | ']' :: text => some ([], text)
  | '"' :: text =>
    match _reads : Text.literal .plain text with
    | some (value, ',' :: ' ' :: text) =>
      (literals text).map fun (values, text) => (String.ofList value :: values, text)
    | some (value, ']' :: text) => some ([String.ofList value], text)
    | _ => none
  | _ => none
  termination_by text => text.length
  decreasing_by
    have shorter := Text.literal_shorter _reads
    simp only [List.length_cons] at shorter ⊢
    omega

def condition (text : List Char) : Option (Condition × List Char) :=
  match text.head? with
  | some 'm' => do
    let text ← expect "matches!(self.text().split(" text
    let (separator, text) ← character text
    let text ← expect ").collect::<Vec<_>>().as_slice(), [_, f] if " text
    let (first, text) ← test "f" text
    let text ← expect " && " text
    let (other, text) ← test "f" text
    let text ← expect ")" text
    return (.second separator first other, text)
  | some '[' => do
    let text ← expect "[" text
    let (values, text) ← literals text
    let text ← expect ".contains(&self.text())" text
    return (.listed values, text)
  | _ => do
    let (test, text) ← test "self.text()" text
    return (.whole test, text)

end Reader

/-- The condition that an expression states. -/
def Condition.read? (expression : String) : Option Condition :=
  match Reader.condition expression.toList with
  | some (condition, []) => some condition
  | _ => none

namespace Reader
variable {rest : List Char}

theorem number_append (n : Nat) (stops : ∀ c ∈ rest.head?, c.isDigit = false) :
    number ((toString (n : Int)).toList ++ rest) = some (n, rest) := by
  have written : (toString (n : Int)).toList = Nat.toDigits 10 n := by
    rw [Int.toString_eq_repr, Int.repr_eq_if]
    simp
  have proper : ∀ c ∈ Nat.toDigits 10 n, c.isDigit := fun c => Nat.isDigit_of_mem_toDigits (by decide) (by decide)
  have stop : rest.takeWhile Char.isDigit = [] ∧ rest.dropWhile Char.isDigit = rest := by
    cases rest with
    | nil => exact ⟨rfl, rfl⟩
    | cons c rest =>
      have other := stops c rfl
      exact ⟨List.takeWhile_cons_of_neg (by simp [other]), List.dropWhile_cons_of_neg (by simp [other])⟩
  rw [number, written, List.takeWhile_append_of_pos proper, List.dropWhile_append_of_pos proper, stop.1,
    stop.2, List.append_nil, Digits.number?_eq proper Nat.toDigits_ne_nil, Nat.ofDigitChars_ten_toDigits]
  rfl

theorem expect_append (word : String) : expect word (word.toList ++ rest) = some rest :=
  List.dropPrefix?_append_of_beq _ (beq_self_eq_true _)

theorem test_count {name : String} {first : Char} (begins : name.toList.head? = some first) (plain : first ≠ '!')
    (bound : LengthBound) {text : List Char} {n : Nat} (reads : number text = some (n, rest)) :
    test name (name.toList ++ (".chars().count() ".toList ++ (bound.symbol.toList ++ (" ".toList ++ text)))) =
      some (.count bound.comparison n, rest) := by
  have compared (text : List Char) : comparison (bound.symbol.toList ++ text) = some (bound.comparison, text) := by
    cases bound <;> rfl
  rw [test, List.head?_append, begins]
  split
  · next same => exact absurd (Option.some.inj same) plain
  · simp only [expect_append, compared, reads, Option.bind_eq_bind, Option.bind_some]
    rfl

theorem condition_whole (bound : LengthBound) {text : List Char} {n : Nat} (reads : number text = some (n, rest)) :
    condition ("self.text()".toList ++ (".chars().count() ".toList ++ (bound.symbol.toList ++ (" ".toList ++ text)))) =
      some (.whole (.count bound.comparison n), rest) := by
  have begins : "self.text()".toList.head? = some 's' := rfl
  rw [condition, List.head?_append, begins]
  simp only [Option.some_or, test_count begins (by decide) bound reads]
  rfl

theorem condition_second {text : List Char} {other : Test} (reads : test "f" text = some (other, ")".toList ++ rest)) :
    condition ("matches!(self.text().split('.').collect::<Vec<_>>().as_slice(), ".toList ++
      ("[_, f] if !f.is_empty() && ".toList ++ text)) =
      some (.second '.' .filled other, rest) := by
  have unfolded : condition
      ("matches!(self.text().split('.').collect::<Vec<_>>().as_slice(), ".toList ++
        ("[_, f] if !f.is_empty() && ".toList ++ text)) =
      (test "f" text).bind fun (other, text) => (expect ")" text).bind fun text =>
          some (.second '.' .filled other, text) := by cbv
  rw [unfolded, reads, Option.bind_some]
  simp only [expect_append, Option.bind_some]

theorem literals_last (value : String) :
    literals ((Text.quoted value).toList ++ ("]".toList ++ rest)) = some ([value], rest) := by
  have quoted : (Text.quoted value).toList ++ ("]".toList ++ rest) =
      '"' :: (value.toList.flatMap Text.escapeQuoted ++ '"' :: ']' :: rest) := by
    simp [Text.quoted]
  rw [quoted, literals, Text.literal_quoted]
  simp

theorem literals_next (value : String) (text : List Char) :
    literals ((Text.quoted value).toList ++ (", ".toList ++ text)) =
    (literals text).map fun (values, text) => (value :: values, text) := by
  have quoted : (Text.quoted value).toList ++ (", ".toList ++ text) =
      '"' :: (value.toList.flatMap Text.escapeQuoted ++ '"' :: ',' :: ' ' :: text) := by
    simp [Text.quoted]
  rw [quoted, literals, Text.literal_quoted]
  simp

theorem literals_quoted (values : List String) :
    literals ((", ".intercalate (values.map Text.quoted)).toList ++ ("]".toList ++ rest)) = some (values, rest) := by
  rw [String.toList_intercalate, List.map_map]
  induction values with
  | nil => cbv
  | cons value values ih =>
    cases values with
    | nil =>
      rw [List.map_singleton, List.intercalate_singleton]
      exact literals_last value
    | cons other values =>
      rw [List.map_cons, List.map_cons, List.intercalate_cons_cons, ← List.map_cons, List.append_assoc,
        List.append_assoc]
      exact (literals_next value _).trans (congrArg _ ih)

theorem condition_listed {text : List Char} {values : List String}
    (reads : literals text = some (values, ".contains(&self.text())".toList ++ rest)) :
    condition ("[".toList ++ text) = some (.listed values, rest) := by
  have begins : "[".toList.head? = some '[' := rfl
  rw [condition, List.head?_append, begins]
  simp only [Option.some_or, expect_append, reads, Option.bind_eq_bind, Option.bind_some]
  rfl

end Reader

namespace Check

theorem read_length (bound : LengthBound) (limit : Nat) :
    Condition.read? (length bound limit).expression = some (.whole (.count bound.comparison limit)) := by
  have printed : (length bound limit).expression =
      "self.text().chars().count() " ++ bound.symbol ++ " " ++ toString (limit : Int) := rfl
  have parts : "self.text().chars().count() " = "self.text()" ++ ".chars().count() " := by decide
  have written : (length bound limit).expression.toList = "self.text()".toList ++ (".chars().count() ".toList ++
      (bound.symbol.toList ++ (" ".toList ++ ((toString (limit : Int)).toList ++ [])))) := by
    simp only [printed, parts, String.toList_append, List.append_assoc, List.append_nil]
  have reads : Reader.number ((toString (limit : Int)).toList ++ []) = some (limit, []) :=
    Reader.number_append limit nofun
  rw [Condition.read?, written, Reader.condition_whole bound reads]

theorem read_fractionDigits (count : Nat) :
    Condition.read? (fractionDigits count).expression = some (.second '.' .filled (.count .equal count)) := by
  have printed : (fractionDigits count).expression =
    "matches!(self.text().split('.').collect::<Vec<_>>().as_slice(), " ++
      "[_, f] if !f.is_empty() && f.chars().count() == " ++ toString (count : Int) ++ ")" := rfl
  have parts : "[_, f] if !f.is_empty() && f.chars().count() == " =
      "[_, f] if !f.is_empty() && " ++ "f" ++ ".chars().count() " ++ LengthBound.exact.symbol ++ " " := by decide
  have written : (fractionDigits count).expression.toList =
    "matches!(self.text().split('.').collect::<Vec<_>>().as_slice(), ".toList ++
      ("[_, f] if !f.is_empty() && ".toList ++
        ("f".toList ++ (".chars().count() ".toList ++ (LengthBound.exact.symbol.toList ++
        (" ".toList ++ ((toString (count : Int)).toList ++ (")".toList ++ []))))))) := by
    simp only [printed, parts, String.toList_append, List.append_assoc, List.append_nil]
  have reads : Reader.number ((toString (count : Int)).toList ++ (")".toList ++ [])) = some (count, ")".toList ++ []) :=
    Reader.number_append count fun c same => by cases same; decide
  have begins : "f".toList.head? = some 'f' := rfl
  rw [Condition.read?, written, Reader.condition_second (Reader.test_count begins (by decide) .exact reads)]
  rfl

theorem read_enumeration (values : List String) :
    Condition.read? (enumeration values).expression = some (.listed values) := by
  have printed : (enumeration values).expression =
      "[" ++ ", ".intercalate (values.map Text.quoted) ++ "]" ++ ".contains(&self.text())" := rfl
  have written : (enumeration values).expression.toList = "[".toList ++
      ((", ".intercalate (values.map Text.quoted)).toList ++
          ("]".toList ++ (".contains(&self.text())".toList ++ []))) := by
    simp only [printed, String.toList_append, List.append_assoc, List.append_nil]
  rw [Condition.read?, written, Reader.condition_listed (Reader.literals_quoted values)]

/-- A rule that the text of an instance is checked against as it is written, with a number that counts characters. -/
def IsTextual : Check → Prop
  | fractionDigits count => 0 ≤ count
  | length _ limit => 0 ≤ limit
  | enumeration _ => True
  | fieldValid _ | value .. | choice _ => False

/-- Behind the only point of a text stand blanks at the end, and there are so many characters with them, or
without them. -/
def Blurs (count : Nat) (text : List Char) : Prop :=
  ∃ whole part, text = whole ++ '.' :: part ∧ '.' ∉ whole ∧ '.' ∉ part ∧ Text.trimEnd part ≠ part ∧
    (part.length = count ∨ Text.trimEnd part ≠ [] ∧ (Text.trimEnd part).length = count)

theorem holds_length {bound : LengthBound} {limit : Nat} {text : String} :
    (Condition.whole (.count bound.comparison limit)).holds text = true ↔ bound.Keeps text.toList.length limit := by
  cases bound <;> simp [Condition.holds, Test.holds, Comparison.holds, LengthBound.comparison, LengthBound.Keeps]

theorem holds_second {count : Nat} {text : String} :
    (Condition.second '.' .filled (.count .equal count)).holds text = true ↔
    ∃ whole part, halves? text.toList = some (whole, part) ∧ part ≠ [] ∧ part.length = count := by
  simp only [halves?_eq_some_iff, ← Text.splitOn_eq_pair, Condition.holds, Test.holds, Comparison.holds]
  split
  · next whole part parts => simp [parts]
  · next other =>
    refine ⟨nofun, ?_⟩
    rintro ⟨whole, part, parts, _⟩
    exact absurd parts (other whole part)

theorem length_trimEnd {part : List Char} (differs : Text.trimEnd part ≠ part) :
    (Text.trimEnd part).length < part.length := by
  have kept : Text.trimEnd part <+: part := List.rdropWhile_prefix _ _
  exact lt_of_le_of_ne kept.length_le fun same => differs (kept.eq_of_length same)

/-- What the printed expression makes of a text is what the check makes of it, but for blanks behind the digits. -/
theorem fractionDigits_agrees {count : Nat} {object : Instance} :
    (Condition.second '.' .filled (.count .equal count)).holds object.text = (fractionDigits count).passes object ↔
      ¬ Blurs count object.text.toList := by
  have blurs : Blurs count object.text.toList ↔ ∃ whole part, halves? object.text.toList = some (whole, part) ∧
      Text.trimEnd part ≠ part ∧
          (part.length = count ∨ Text.trimEnd part ≠ [] ∧ (Text.trimEnd part).length = count) := by
    simp only [Blurs, halves?_eq_some_iff, and_assoc]
  rw [Bool.eq_iff_iff, holds_second, passes_fractionDigits, halves?_trimChars, blurs]
  cases halves? object.text.toList with
  | none => simp
  | some parts =>
    obtain ⟨whole, part⟩ := parts
    simp only [Option.map_some, Option.some.injEq, Prod.mk.injEq, and_assoc, exists_and_left,
      exists_eq_left', Nat.cast_inj]
    by_cases same : Text.trimEnd part = part
    · simp [same]
    · have shorter := length_trimEnd same
      have filled : part ≠ [] := List.ne_nil_of_length_pos (by omega)
      have apart : ¬(part.length = count ∧ (Text.trimEnd part).length = count) := by omega
      simp only [filled, same, ne_eq, not_false_eq_true, true_and]
      tauto

/-- The expression that is printed for a check of texts states a condition, and the condition holds of a text
exactly if the check passes, unless the text blurs the digits that the check counts. -/
theorem expression_agrees {check : Check} (textual : check.IsTextual) :
    ∃ condition, Condition.read? check.expression = some condition ∧ ∀ object : Instance,
      condition.holds object.text = check.passes object ↔
        ¬ ∃ count : Nat, check = .fractionDigits count ∧ Blurs count object.text.toList := by
  cases check with
  | fractionDigits count =>
    obtain ⟨count, rfl⟩ := Int.eq_ofNat_of_zero_le textual
    refine ⟨_, read_fractionDigits count, fun object => fractionDigits_agrees.trans (not_congr ?_)⟩
    simp
  | length bound limit =>
    obtain ⟨limit, rfl⟩ := Int.eq_ofNat_of_zero_le textual
    refine ⟨_, read_length bound limit, fun object => ?_⟩
    have agrees : (Condition.whole (.count bound.comparison limit)).holds object.text =
        (length bound limit).passes object := by
      rw [Bool.eq_iff_iff, holds_length, passes_length]
    simp [agrees]
  | enumeration values =>
    refine ⟨_, read_enumeration values, fun object => ?_⟩
    have agrees : (Condition.listed values).holds object.text = (enumeration values).passes object := by
      rw [Bool.eq_iff_iff, passes_enumeration, Condition.holds]
      simp
    simp [agrees]
  | fieldValid | value | choice => cases textual

theorem expression_agrees_plain : (fractionDigits 1).IsTextual ∧ ¬ Blurs 1 "1.5".toList ∧
    ∃ condition, Condition.read? (fractionDigits 1).expression = some condition ∧
      condition.holds "1.5" = (fractionDigits 1).passes (.leaf "Price" "1.5") := by
  have textual : (fractionDigits 1).IsTextual := Int.zero_le_ofNat 1
  have plain : ¬ Blurs 1 "1.5".toList := (@fractionDigits_agrees 1 (.leaf "Price" "1.5")).mp (by decide)
  obtain ⟨condition, read, agrees⟩ := expression_agrees textual
  refine ⟨textual, plain, condition, read, (agrees (.leaf "Price" "1.5")).mpr ?_⟩
  rintro ⟨count, same, blurs⟩
  cases same
  exact plain blurs

/-- A blank behind the digits passes the check, and not the expression. -/
theorem expression_differs : (fractionDigits 1).IsTextual ∧ ∃ condition,
    Condition.read? (fractionDigits 1).expression = some condition ∧
      condition.holds "1.5 " = false ∧ (fractionDigits 1).passes (.leaf "Price" "1.5 ") = true :=
  ⟨Int.zero_le_ofNat 1, _, read_fractionDigits 1, by decide, by decide⟩

end Check
end SchemaClasses
