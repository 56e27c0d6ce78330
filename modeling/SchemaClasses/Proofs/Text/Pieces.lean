import SchemaClasses.Check
import Mathlib.Data.List.DropRight

/-! Texts in two parts. The blanks at the two ends of a text belong to its outer parts, so a text without them
has as many points, and the part behind the only one has lost its blanks at the end. -/

namespace SchemaClasses

namespace Text
variable {c : Char} {text whole rest : List Char}

def trimEnd (text : List Char) : List Char := text.rdropWhile isBlank

theorem pieces_eq_splitOn : pieces (· = c) text = text.splitOn c := by
  induction text with
  | nil => rfl
  | cons first text ih =>
    rw [pieces, List.splitOn_cons_eq_if_modifyHead, ih]
    simp only [decide_eq_true_eq, beq_iff_eq]
    split_ifs with separates
    · rfl
    · cases pieces : text.splitOn c with
      | nil => exact absurd pieces (List.splitOn_ne_nil c text)
      | cons => rfl

theorem splitOn_eq_pair : text.splitOn c = [whole, rest] ↔ text = whole ++ c :: rest ∧ c ∉ whole ∧ c ∉ rest := by
  constructor
  · intro pieces
    by_cases present : c ∈ text
    · obtain ⟨front, behind, rfl, first⟩ := List.eq_append_cons_of_mem present
      rw [List.splitOn_append_cons_self, List.splitOn_eq_singleton first] at pieces
      by_cases again : c ∈ behind
      · obtain ⟨middle, last, rfl, second⟩ := List.eq_append_cons_of_mem again
        rw [List.splitOn_append_cons_self, List.splitOn_eq_singleton second] at pieces
        simp [List.splitOn_ne_nil] at pieces
      · rw [List.splitOn_eq_singleton again] at pieces
        cases pieces
        exact ⟨rfl, first, again⟩
    · rw [List.splitOn_eq_singleton present] at pieces
      cases pieces
  · rintro ⟨rfl, first, again⟩
    rw [List.splitOn_append_cons_self, List.splitOn_eq_singleton first, List.splitOn_eq_singleton again]
    rfl

theorem trimEnd_append (text : List Char) : ∃ blanks, text = trimEnd text ++ blanks ∧ ∀ c ∈ blanks, isBlank c := by
  refine ⟨text.rtakeWhile isBlank, ?_, fun c listed => List.mem_rtakeWhile_imp listed⟩
  exact (List.rdropWhile_append_rtakeWhile ..).symm

theorem dropWhile_append_cons {p : Char → Bool} (keeps : p c = false) :
    (whole ++ c :: rest).dropWhile p = whole.dropWhile p ++ c :: rest := by
  rw [List.dropWhile_append]
  split_ifs with all
  · rw [List.isEmpty_iff.mp all, List.dropWhile_cons_of_neg (by simp [keeps])]
    rfl
  · rfl

theorem trimChars_append_cons (visible : isBlank c = false) :
    trimChars (whole ++ c :: rest) = whole.dropWhile isBlank ++ c :: trimEnd rest := by
  rw [trimChars, dropWhile_append_cons visible, List.reverse_append, List.reverse_cons, List.append_assoc,
    List.singleton_append, dropWhile_append_cons visible]
  simp [trimEnd, List.rdropWhile]

theorem mem_of_mem_trimChars (listed : c ∈ trimChars text) : c ∈ text := by
  have kept := (List.dropWhile_sublist _).mem (List.mem_reverse.mp listed)
  exact (List.dropWhile_sublist _).mem (List.mem_reverse.mp kept)

theorem mem_trimEnd_iff (visible : isBlank c = false) : c ∈ trimEnd text ↔ c ∈ text := by
  refine ⟨(List.rdropWhile_prefix _ _).sublist.mem, fun listed => ?_⟩
  obtain ⟨blanks, same, blank⟩ := trimEnd_append text
  rcases List.mem_append.mp ((congrArg (c ∈ ·) same).mp listed) with kept | cut
  · exact kept
  · rw [blank c cut] at visible
    cases visible

end Text

namespace Check
variable {text whole fraction : List Char}

theorem halves?_eq_some_iff :
    halves? text = some (whole, fraction) ↔ text = whole ++ '.' :: fraction ∧ '.' ∉ whole ∧ '.' ∉ fraction := by
  rw [← Text.splitOn_eq_pair, halves?, Text.pieces_eq_splitOn]
  split
  · next pieces => simp [pieces]
  · next different => exact ⟨nofun, fun pieces => absurd pieces (different _ _)⟩

theorem halves?_eq_none (absent : '.' ∉ text) : halves? text = none := by
  rw [halves?, Text.pieces_eq_splitOn, List.splitOn_eq_singleton absent]

theorem halves?_append_cons (first : '.' ∉ whole) :
    halves? (whole ++ '.' :: fraction) = if '.' ∈ fraction then none else some (whole, fraction) := by
  split_ifs with again
  · rw [Option.eq_none_iff_forall_ne_some]
    rintro ⟨other, behind⟩ halves
    obtain ⟨same, apart, single⟩ := halves?_eq_some_iff.mp halves
    have counted := congrArg (List.count '.') same
    rw [List.count_append, List.count_append, List.count_cons_self, List.count_cons_self, List.count_eq_zero.mpr first,
      List.count_eq_zero.mpr apart, List.count_eq_zero.mpr single] at counted
    exact List.count_eq_zero.mp (by omega) again
  · exact halves?_eq_some_iff.mpr ⟨rfl, first, again⟩

theorem halves?_trimChars : halves? (Text.trimChars text) =
    (halves? text).map fun (whole, fraction) => (whole.dropWhile Text.isBlank, Text.trimEnd fraction) := by
  have visible : Text.isBlank '.' = false := by decide
  by_cases present : '.' ∈ text
  · obtain ⟨whole, fraction, rfl, first⟩ := List.eq_append_cons_of_mem present
    have shortened : '.' ∉ whole.dropWhile Text.isBlank := fun listed => first ((List.dropWhile_sublist _).mem listed)
    rw [Text.trimChars_append_cons visible, halves?_append_cons first, halves?_append_cons shortened]
    simp only [Text.mem_trimEnd_iff visible]
    split_ifs <;> rfl
  · rw [halves?_eq_none present, halves?_eq_none fun listed => present (Text.mem_of_mem_trimChars listed)]
    rfl

end Check
end SchemaClasses
