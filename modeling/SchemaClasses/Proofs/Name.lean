import Mathlib
import SchemaClasses.Name

/-! Names of fields. An ASCII name becomes small letters, digits and underscores that start as an identifier
does, and what would be a keyword is escaped. A field name is its own field name. -/

namespace SchemaClasses.Name
open Text

theorem splitChars_of_plain {name : List Char} (plain : ':' ∉ name) : splitChars name = (none, name) := by
  induction name with
  | nil => rfl
  | cons c rest ih =>
    have other : c ≠ ':' := fun same => plain (same ▸ List.mem_cons_self)
    rw [splitChars, if_neg other, ih fun member => plain (List.mem_cons_of_mem _ member)]

theorem splitChars_append {label rest : List Char} (plain : ':' ∉ label) :
    splitChars (label ++ ':' :: rest) = (some label, rest) := by
  induction label with
  | nil => rw [List.nil_append, splitChars, if_pos rfl]
  | cons c label ih =>
    have other : c ≠ ':' := fun same => plain (same ▸ List.mem_cons_self)
    rw [List.cons_append, splitChars, if_neg other, ih fun member => plain (List.mem_cons_of_mem _ member)]

theorem localChars_localChars {name : List Char} (few : name.count ':' ≤ 1) :
    localChars (localChars name) = localChars name := by
  have plain : ':' ∉ localChars name := by
    by_cases colon : ':' ∈ name
    · obtain ⟨label, rest, rfl, plain⟩ := List.eq_append_cons_of_mem colon
      rw [List.count_append, List.count_cons_self] at few
      have none : rest.count ':' = 0 := by omega
      rw [localChars, splitChars_append plain]
      exact List.count_eq_zero.mp none
    · rw [localChars, splitChars_of_plain colon]
      exact colon
  rw [localChars, splitChars_of_plain plain]

theorem field_localPart {name : String} (few : name.toList.count ':' ≤ 1) : field (localPart name) = field name := by
  have chars : (localPart name).toList = localChars name.toList := String.toList_ofList
  have same : snake (localPart name) = snake name := by rw [snake, chars, localChars_localChars few, snake]
  rw [field, same, field]

theorem field_labelled {label name : String} (plain : ':' ∉ label.toList) (unlabelled : ':' ∉ name.toList) :
    field (label ++ ":" ++ name) = field name := by
  have chars : (label ++ ":" ++ name).toList = label.toList ++ ':' :: name.toList := by
    rw [String.toList_append, String.toList_append, List.append_assoc]
    rfl
  have same : snake (label ++ ":" ++ name) = snake name := by
    rw [snake, chars, localChars, splitChars_append plain, snake, localChars, splitChars_of_plain unlabelled]
  rw [field, same, field]

section Cuts
variable {boundary : Boundary} {text : List Char} {c : Char}

/-- Every cut has a character before it. -/
def Boundary.Inner (boundary : Boundary) : Prop :=
  ∀ {text before after}, boundary text = some (before, after) → 0 < before

theorem acronymBoundary_inner : Boundary.Inner acronymBoundary := by
  intro text before after cut
  obtain ⟨n, found, same⟩ := Option.map_eq_some_iff.mp cut
  obtain ⟨rfl, _⟩ := Prod.mk.inj same
  rcases text with - | ⟨c, rest⟩
  · cases found
  · rw [acronymLength] at found
    split at found
    · split at found
      · exact Option.some.inj found ▸ Nat.succ_pos _
      · split at found
        · exact Option.some.inj found ▸ Nat.one_pos
        · cases found
    · cases found

theorem wordBoundary_inner : Boundary.Inner wordBoundary := by
  intro text before after cut
  unfold wordBoundary at cut
  split at cut
  · split at cut
    · obtain ⟨rfl, _⟩ := Prod.mk.inj (Option.some.inj cut)
      exact Nat.one_pos
    · cases cut
  · cases cut

theorem head?_cutAt (inner : boundary.Inner) : (cutAt boundary text).head? = text.head? := by
  cases text with
  | nil => rw [cutAt]
  | cons c rest =>
    rw [cutAt]
    split
    · next before after cut =>
      obtain ⟨count, rfl⟩ := Nat.exists_eq_add_one.mpr (inner cut)
      rfl
    · rfl

theorem mem_cutAt_iff (inner : boundary.Inner) (other : c ≠ '_') : c ∈ cutAt boundary text ↔ c ∈ text := by
  fun_induction cutAt boundary text with
  | case1 => exact Iff.rfl
  | case2 first rest before after cut ih =>
    obtain ⟨count, rfl⟩ := Nat.exists_eq_add_one.mpr (inner cut)
    have behind : rest.drop (count + 1 + after - 1) = ((first :: rest).drop (count + 1)).drop after := by
      rw [List.drop_succ_cons, List.drop_drop, Nat.add_right_comm, Nat.add_sub_cancel]
    rw [behind] at ih ⊢
    simp only [List.mem_append, List.mem_cons, other, false_or, ih]
    rw [or_assoc, ← List.mem_append, List.take_append_drop, ← List.mem_append, List.take_append_drop]
    exact List.mem_cons
  | case3 first rest none ih => rw [List.mem_cons, List.mem_cons, ih]

theorem cutAt_of_none (uncut : ∀ rest, rest <:+ text → boundary rest = none) : cutAt boundary text = text := by
  induction text with
  | nil => rw [cutAt]
  | cons c rest ih =>
    have rest := ih fun part further => uncut part (further.trans (List.suffix_cons c rest))
    rw [cutAt, uncut _ List.suffix_rfl]
    exact congrArg _ rest

theorem mem_joinSeparators_iff (other : c ≠ '_') : c ∈ joinSeparators text ↔ c ∈ text ∧ isSeparator c = false := by
  fun_induction joinSeparators text with
  | case1 => simp
  | case2 first rest separator ih =>
    have skipped : c ∈ rest.dropWhile isSeparator ∧ isSeparator c = false ↔ c ∈ rest ∧ isSeparator c = false := by
      refine and_congr_left fun proper => ⟨fun listed => (List.dropWhile_sublist _).mem listed, fun listed => ?_⟩
      rw [← List.takeWhile_append_dropWhile (p := isSeparator) (l := rest)] at listed
      refine (List.mem_append.mp listed).resolve_left fun taken => ?_
      rw [List.mem_takeWhile_imp taken] at proper
      cases proper
    have different (proper : isSeparator c = false) : c ≠ first := by
      rintro rfl
      rw [separator] at proper
      cases proper
    rw [List.mem_cons, ih, skipped, List.mem_cons]
    grind
  | case3 first rest proper ih =>
    rw [List.mem_cons, ih, List.mem_cons]
    grind

theorem head?_joinSeparators {first : Char} (starts : text.head? = some first) (proper : isSeparator first = false) :
    (joinSeparators text).head? = some first := by
  obtain ⟨rest, rfl⟩ := List.head?_eq_some_iff.mp starts
  rw [joinSeparators, proper]
  rfl

end Cuts

section Case
variable {text : List Char} {c : Char}

def isNameChar (c : Char) : Bool :=
  c.isAlphanum || c = '_' || c = '-' || c = '.'

def isFieldChar (c : Char) : Bool :=
  c.isLower || c.isDigit || c = '_' || c = '#'

theorem ascii_of_isAlphanum (alphanum : c.isAlphanum) : c.toNat < 128 := by
  simp only [Char.isAlphanum, Char.isAlpha, Char.isUpper, Char.isLower, Char.isDigit, Bool.or_eq_true,
    Bool.and_eq_true, decide_eq_true_eq,
    UInt32.le_iff_toNat_le, ge_iff_le, Char.reduceVal, UInt32.reduceToNat] at alphanum
  change c.val.toNat < 128
  omega

theorem of_ascii {P : Char → Prop} (all : ∀ n < 128, P (Char.ofNat n)) (ascii : c.toNat < 128) : P c := by
  have own := all c.toNat ascii
  rwa [Char.ofNat_toNat] at own

theorem isFieldChar_ascii (proper : isFieldChar c) : c.toNat < 128 := by
  simp only [isFieldChar, Bool.or_eq_true, decide_eq_true_eq] at proper
  rcases proper with ((lower | digit) | rfl) | rfl
  · exact ascii_of_isAlphanum (by simp [Char.isAlphanum, Char.isAlpha, lower])
  · exact ascii_of_isAlphanum (by simp [Char.isAlphanum, digit])
  all_goals decide

/-- A character of a field name is no capital, separates nothing and is no colon. -/
structure Settled (c : Char) : Prop where
  small : c.isUpper = false
  joined : isSeparator c = false
  unlabelled : c ≠ ':'

instance : DecidablePred Settled := fun c =>
  decidable_of_iff (c.isUpper = false ∧ isSeparator c = false ∧ c ≠ ':')
    ⟨fun ⟨small, joined, unlabelled⟩ => ⟨small, joined, unlabelled⟩, fun ⟨small, joined, unlabelled⟩ =>
      ⟨small, joined, unlabelled⟩⟩

theorem isFieldChar_settled (proper : isFieldChar c) : Settled c :=
  of_ascii (P := fun c => isFieldChar c → Settled c) (by decide +kernel) (isFieldChar_ascii proper) proper

theorem toLower_of_ascii (ascii : ∀ c ∈ text, c.toNat < 128) : toLower text = text.map Char.toLower := by
  have behind (before : List Char) : lowerFrom before text = text.map Char.toLower := by
    induction text generalizing before with
    | nil => rfl
    | cons c rest ih =>
      obtain ⟨first, others⟩ := List.forall_mem_cons.mp ascii
      have sigma : c ≠ 'Σ' := by
        rintro rfl
        exact absurd first (by decide)
      have plain : c.val < 128 := first
      rw [lowerFrom, if_neg sigma, lowerCase, if_pos plain, ih others]
      rfl
  exact behind []

theorem acronymLength_of_small (small : ∀ c ∈ text, c.isUpper = false) : acronymLength text = none := by
  induction text with
  | nil => rfl
  | cons c rest ih =>
    have others := (List.forall_mem_cons.mp small).2
    have plain : startsWord rest = false := by
      rcases rest with - | ⟨d, - | ⟨e, rest⟩⟩
      · rfl
      · rfl
      · rw [startsWord, others d List.mem_cons_self]
        rfl
    rw [acronymLength, ih others, plain]
    exact ite_self _

theorem wordBoundary_of_small (small : ∀ c ∈ text, c.isUpper = false) : wordBoundary text = none := by
  rcases text with - | ⟨c, - | ⟨d, rest⟩⟩
  · rfl
  · rfl
  · rw [wordBoundary, small d (List.mem_cons_of_mem c List.mem_cons_self), Bool.and_false]
    rfl

theorem joinSeparators_of_joined (joined : ∀ c ∈ text, isSeparator c = false) : joinSeparators text = text := by
  induction text with
  | nil => rw [joinSeparators]
  | cons c rest ih =>
    obtain ⟨first, others⟩ := List.forall_mem_cons.mp joined
    rw [joinSeparators, first, ih others]
    rfl

theorem snake_of_field {word : String} (proper : ∀ c ∈ word.toList, isFieldChar c) : snake word = word := by
  have settled (c : Char) (listed : c ∈ word.toList) : Settled c := isFieldChar_settled (proper c listed)
  have small (c : Char) (listed : c ∈ word.toList) : c.isUpper = false := (settled c listed).small
  have uncut {boundary : Boundary} (none : ∀ {rest}, (∀ c ∈ rest, c.isUpper = false) → boundary rest = none) :
      cutAt boundary word.toList = word.toList :=
    cutAt_of_none fun rest suffix => none fun c listed => small c (suffix.mem listed)
  have lower : word.toList.map Char.toLower = word.toList :=
    (List.map_congr_left fun c listed => Char.toLower_eq_of_not_isUpper (by simp [small c listed])).trans
      (List.map_id _)
  have local' : localChars word.toList = word.toList := by
    rw [localChars, splitChars_of_plain fun colon => (settled ':' colon).unlabelled rfl]
  rw [snake, local', snakeChars, uncut fun plain => by rw [acronymBoundary, acronymLength_of_small plain]; rfl,
    uncut wordBoundary_of_small, joinSeparators_of_joined fun c listed => (settled c listed).joined,
    toLower_of_ascii fun c listed => isFieldChar_ascii (proper c listed), lower, String.ofList_toList]

end Case

/-- A name as most schemas have them: a letter or an underscore, and then letters, digits and marks. -/
structure Usual (name : String) : Prop where
  starts : ∃ first, name.toList.head? = some first ∧ (first.isAlpha ∨ first = '_')
  chars : ∀ c ∈ name.toList, isNameChar c
  speaks : ∃ c ∈ name.toList, c.isAlphanum

structure IsSnake (word : String) : Prop where
  starts : ∃ first, word.toList.head? = some first ∧ (first.isLower ∨ first = '_')
  chars : ∀ c ∈ word.toList, c.isLower ∨ c.isDigit ∨ c = '_'
  speaks : word ≠ "_"

/-- The keywords of the language that classes are generated in. -/
def strictWords : List String := [
  "as", "async", "await", "break", "const", "continue", "crate", "dyn", "else", "enum", "extern", "false", "fn",
  "for", "if", "impl", "in",
  "let", "loop", "match", "mod", "move", "mut", "pub", "ref", "return", "self", "Self", "static", "struct", "super",
  "trait", "true", "type", "unsafe", "use", "where", "while"]

/-- Words that the language keeps for later. -/
def reservedWords : List String := [
  "abstract", "become", "box", "do", "final", "macro", "override", "priv", "try", "typeof", "unsized",
  "virtual", "yield"]

/-- Keywords that no mark in front turns into an identifier. -/
def unescapable : List String := ["crate", "self", "super", "Self"]

/-- The fields that may be called after a word: an identifier if it is no keyword, else one that is made of the
keyword. -/
inductive Spells (word : String) : String → Prop where
  | plain (free : word ∉ strictWords ++ reservedWords) : Spells word word
  | raw (taken : word ∈ strictWords ++ reservedWords) (escapable : word ∉ unescapable) : Spells word ("r#" ++ word)
  | suffixed (path : word ∈ ["crate", "self", "super"]) : Spells word (word ++ "_")

section Field
variable {name word : String}

theorem isSeparator_of_isAlphanum {c : Char} (alphanum : c.isAlphanum) : isSeparator c = false :=
  of_ascii (P := fun c => c.isAlphanum → isSeparator c = false) (by decide +kernel)
    (ascii_of_isAlphanum alphanum) alphanum

theorem toLower_of_isAlphanum {c : Char} (alphanum : c.isAlphanum) : c.toLower.isLower ∨ c.toLower.isDigit := by
  rw [Char.isAlphanum, Bool.or_eq_true] at alphanum
  rcases alphanum with alpha | digit
  · exact Or.inl (by rw [Char.isLower_toLower_eq_isAlpha, alpha])
  · by_cases upper : c.isUpper
    · exact Or.inl (by rw [Char.isLower_toLower_eq_isAlpha, Char.isAlpha, upper, Bool.true_or])
    · exact Or.inr (by rw [Char.toLower_eq_of_not_isUpper upper, digit])

/-- The words of a name with underscores between them, before capitals are lost. -/
def underscored (name : List Char) : List Char :=
  joinSeparators (cutAt wordBoundary (cutAt acronymBoundary name))

theorem mem_underscored_iff {name : List Char} {c : Char} (other : c ≠ '_') :
    c ∈ underscored name ↔ c ∈ name ∧ isSeparator c = false := by
  rw [underscored, mem_joinSeparators_iff other, mem_cutAt_iff wordBoundary_inner other,
    mem_cutAt_iff acronymBoundary_inner other]

theorem head?_underscored {name : List Char} {first : Char} (starts : name.head? = some first)
    (proper : isSeparator first = false) :
    (underscored name).head? = some first := by
  refine head?_joinSeparators ?_ proper
  rw [head?_cutAt wordBoundary_inner, head?_cutAt acronymBoundary_inner, starts]

theorem underscored_chars {name : List Char} (chars : ∀ c ∈ name, isNameChar c) :
    ∀ c ∈ underscored name, c.isAlphanum ∨ c = '_' := by
  intro c listed
  by_cases other : c = '_'
  · exact Or.inr other
  · obtain ⟨own, joined⟩ := (mem_underscored_iff other).mp listed
    have char := chars c own
    simp only [isNameChar, Bool.or_eq_true, decide_eq_true_eq, other, or_false] at char
    rcases char with (alphanum | rfl) | rfl
    · exact Or.inl alphanum
    · exact absurd joined (by decide)
    · exact absurd joined (by decide)

theorem snake_eq (chars : ∀ c ∈ name.toList, isNameChar c) :
    (snake name).toList = (underscored name.toList).map Char.toLower := by
  have unlabelled : ':' ∉ name.toList := fun colon => absurd (chars ':' colon) (by decide)
  have ascii (c : Char) (listed : c ∈ underscored name.toList) : c.toNat < 128 := by
    rcases underscored_chars chars c listed with alphanum | rfl
    · exact ascii_of_isAlphanum alphanum
    · decide
  rw [snake, String.toList_ofList, localChars, splitChars_of_plain unlabelled, snakeChars, ← underscored,
    toLower_of_ascii ascii]

theorem snake_usual (usual : Usual name) : IsSnake (snake name) := by
  obtain ⟨⟨first, starts, leads⟩, chars, spoken, listed, alphanum⟩ := usual
  have snaked := snake_eq chars
  refine ⟨⟨first.toLower, ?_, ?_⟩, ?_, ?_⟩
  · have joined : isSeparator first = false := by
      rcases leads with alpha | rfl
      · exact isSeparator_of_isAlphanum (by rw [Char.isAlphanum, alpha, Bool.true_or])
      · decide
    rw [snaked, List.head?_map, head?_underscored starts joined]
    rfl
  · rcases leads with alpha | rfl
    · exact Or.inl (by rw [Char.isLower_toLower_eq_isAlpha, alpha])
    · exact Or.inr rfl
  · intro small member
    rw [snaked] at member
    obtain ⟨c, listed, rfl⟩ := List.mem_map.mp member
    rcases underscored_chars chars c listed with alphanum | rfl
    · exact (toLower_of_isAlphanum alphanum).elim Or.inl fun digit => Or.inr (Or.inl digit)
    · exact Or.inr (Or.inr rfl)
  · intro mere
    have other : spoken ≠ '_' := by
      rintro rfl
      cases alphanum
    have kept := List.mem_map_of_mem (f := Char.toLower)
      ((mem_underscored_iff other).mpr ⟨listed, isSeparator_of_isAlphanum alphanum⟩)
    rw [← snaked, mere] at kept
    have same : spoken.toLower = '_' := List.mem_singleton.mp kept
    have small := toLower_of_isAlphanum alphanum
    rw [same] at small
    exact absurd small (by decide)

theorem taken_iff : word ∈ strictWords ++ reservedWords ↔ word = "Self" ∨ word ∈ pathKeywords ∨ word ∈ keywords := by
  have forth : ∀ word ∈ strictWords ++ reservedWords, word = "Self" ∨ word ∈ pathKeywords ∨ word ∈ keywords := by decide
  have path : ∀ word ∈ pathKeywords, word ∈ strictWords ++ reservedWords := by decide
  have others : ∀ word ∈ keywords, word ∈ strictWords ++ reservedWords := by decide
  constructor
  · exact forth word
  · rintro (rfl | listed | listed)
    · decide
    · exact path word listed
    · exact others word listed

theorem field_spells (snaked : IsSnake (snake name)) : Spells (snake name) (field name) := by
  have small : snake name ≠ "Self" := by
    intro same
    have capital := snaked.chars 'S' (same ▸ by decide)
    exact absurd capital (by decide)
  have escapable : ∀ word ∈ keywords, word ∉ unescapable := by decide
  simp only [field]
  split
  · next path => exact .suffixed path
  · next other =>
    split
    · next keyword => exact .raw (taken_iff.mpr (Or.inr (Or.inr keyword))) (escapable _ keyword)
    · next free => exact .plain fun taken => (taken_iff.mp taken).elim small fun listed => listed.elim other free

theorem field_of_free (chars : ∀ c ∈ word.toList, isFieldChar c) (free : word ∉ pathKeywords ∧ word ∉ keywords) :
    field word = word := by
  simp only [field, snake_of_field chars, if_neg free.1, if_neg free.2]

theorem Spells.fixed {spelling : String} (snaked : IsSnake word) (spells : Spells word spelling) :
    field spelling = spelling := by
  have chars (c : Char) (listed : c ∈ word.toList) : isFieldChar c := by
    have small := snaked.chars c listed
    simp only [isFieldChar, Bool.or_eq_true, decide_eq_true_eq]
    exact Or.inl (or_assoc.mpr small)
  cases spells with
  | plain free =>
    refine field_of_free chars ⟨fun path => free ?_, fun keyword => free ?_⟩
    · exact taken_iff.mpr (Or.inr (Or.inl path))
    · exact taken_iff.mpr (Or.inr (Or.inr keyword))
  | raw taken escapable =>
    -- no keyword has the mark that stands in front of one
    have marked : '#' ∈ ("r#" ++ word).toList := by simp [String.toList_append]
    have path : ∀ other ∈ pathKeywords, '#' ∉ other.toList := by decide +kernel
    have keyword : ∀ other ∈ keywords, '#' ∉ other.toList := by decide +kernel
    refine field_of_free (fun c listed => ?_) ⟨fun listed => path _ listed marked, fun listed =>
      keyword _ listed marked⟩
    have front : ∀ c ∈ "r#".toList, isFieldChar c := List.all_eq_true.mp (by decide)
    rw [String.toList_append, List.mem_append] at listed
    exact listed.elim (front c) (chars c)
  | suffixed path =>
    have free : ∀ word ∈ ["crate", "self", "super"], word ++ "_" ∉ pathKeywords ∧
        word ++ "_" ∉ keywords := by decide +kernel
    refine field_of_free (fun c listed => ?_) (free word path)
    have behind : ∀ c ∈ "_".toList, isFieldChar c := List.all_eq_true.mp (by decide)
    rw [String.toList_append, List.mem_append] at listed
    exact listed.elim (chars c) (behind c)

/-- The field of a usual name is an identifier in snake case, escaped if it is a keyword. It is its own field
name, and a namespace label in front of the name makes no difference to it. -/
theorem field_legal (usual : Usual name) :
    IsSnake (snake name) ∧ Spells (snake name) (field name) ∧ field (field name) = field name ∧
    ∀ label : String, ':' ∉ label.toList → field (label ++ ":" ++ name) = field name := by
  have snaked := snake_usual usual
  have spells := field_spells snaked
  refine ⟨snaked, spells, spells.fixed snaked, fun label plain => field_labelled plain fun colon => ?_⟩
  exact absurd (usual.chars ':' colon) (by decide)

theorem field_legal_type :
    Usual "Type" ∧ IsSnake (snake "Type") ∧ Spells (snake "Type") (field "Type") ∧ field "Type" = "r#type" ∧
    field (field "Type") = field "Type" ∧ field ("xs" ++ ":" ++ "Type") = field "Type" := by
  have usual : Usual "Type" :=
    ⟨⟨'T', by decide, Or.inl rfl⟩, List.all_eq_true.mp (by decide), ⟨'T', by decide, by decide⟩⟩
  obtain ⟨snaked, spells, fixed, labelled⟩ := field_legal usual
  exact ⟨usual, snaked, spells, by cbv, fixed, labelled "xs" (by decide)⟩

end Field

end SchemaClasses.Name
