import Mathlib
import SchemaClasses.Proofs.Name

/-! Words of a name. The snake form is made by several searches, each over what the last one wrote. For an ASCII
name they all come to one rule, which looks at two neighbours and at what follows them: no search hides a
boundary from another, and none writes an underscore where there is one already. -/

namespace SchemaClasses.Name
open Text

/-- Whether a word begins between two neighbours, as told by them and by what follows. -/
abbrev Gap := Char → Char → Option Char → Bool

/-- The text with an underscore in every gap. -/
def spaced (gap : Gap) : List Char → List Char
  | c :: d :: rest => if gap c d rest.head? then c :: '_' :: spaced gap (d :: rest) else c :: spaced gap (d :: rest)
  | text => text

section Gaps
variable {gap other : Gap} {boundary : Boundary} {text rest : List Char} {c d : Char}

theorem spaced_of_gap (apart : gap c d rest.head?) :
    spaced gap (c :: d :: rest) = c :: '_' :: spaced gap (d :: rest) := by
  rw [spaced, if_pos apart]

theorem spaced_of_together (together : gap c d rest.head? = false) :
    spaced gap (c :: d :: rest) = c :: spaced gap (d :: rest) := by
  rw [spaced, together]
  rfl

theorem spaced_of_not (together : ∀ d next, gap c d next = false) : spaced gap (c :: rest) = c :: spaced gap rest := by
  cases rest with
  | nil => rfl
  | cons d rest => exact spaced_of_together (together d rest.head?)

theorem exists_spaced_cons (gap : Gap) (c : Char) (rest : List Char) :
    ∃ behind, spaced gap (c :: rest) = c :: behind := by
  cases rest with
  | nil => exact ⟨[], rfl⟩
  | cons d rest =>
    rw [spaced]
    split <;> exact ⟨_, rfl⟩

theorem spaced_congr (same : ∀ c ∈ text, ∀ d next, gap c d next = other c d next) :
    spaced gap text = spaced other text := by
  induction text with
  | nil => rfl
  | cons c rest ih =>
    obtain ⟨first, others⟩ := List.forall_mem_cons.mp same
    cases rest with
    | nil => rfl
    | cons d rest => rw [spaced, spaced, first, ih others]

/-- A search that finds the gaps of a text from left to right, and past what it uses up misses none. -/
structure Finds (boundary : Boundary) (gap : Gap) : Prop where
  inner : boundary.Inner
  cut : ∀ {text before after}, boundary text = some (before, after) →
    spaced gap text = text.take before ++ '_' :: (text.drop before).take after ++
      spaced gap (text.drop (before + after))
  uncut : ∀ {c d rest}, boundary (c :: d :: rest) = none → gap c d rest.head? = false

theorem Finds.cutAt_eq (finds : Finds boundary gap) : cutAt boundary text = spaced gap text := by
  fun_induction cutAt boundary text with
  | case1 => rfl
  | case2 c rest before after cut ih =>
    obtain ⟨count, rfl⟩ := Nat.exists_eq_add_one.mpr (finds.inner cut)
    have behind : (c :: rest).drop (count + 1 + after) = rest.drop (count + 1 + after - 1) := by
      rw [Nat.add_right_comm, List.drop_succ_cons, Nat.add_sub_cancel]
    rw [ih, finds.cut cut, behind]
  | case3 c rest none ih =>
    rw [ih]
    cases rest with
    | nil => rfl
    | cons d rest => exact (spaced_of_together (finds.uncut none)).symm

end Gaps

section Searches
variable {text rest : List Char} {c d : Char}

def acronymGap : Gap := fun c d next =>
  isCapitalOrDigit c && (d.isUpper && next.any Char.isLower)

def wordGap : Gap := fun c d _ =>
  isSmallOrDigit c && d.isUpper

theorem ascii_of_isLower (small : c.isLower) : c.toNat < 128 :=
  ascii_of_isAlphanum (by rw [Char.isAlphanum, Char.isAlpha, small, Bool.or_true, Bool.true_or])

theorem ascii_of_isUpper (capital : c.isUpper) : c.toNat < 128 :=
  ascii_of_isAlphanum (by rw [Char.isAlphanum, Char.isAlpha, capital, Bool.true_or, Bool.true_or])

theorem isCapitalOrDigit_of_isLower (small : c.isLower) : isCapitalOrDigit c = false :=
  of_ascii (P := fun c => c.isLower → isCapitalOrDigit c = false) (by decide +kernel) (ascii_of_isLower small) small

theorem isLower_of_isCapitalOrDigit (proper : isCapitalOrDigit c) : c.isLower = false := by
  rw [Bool.eq_false_iff]
  intro small
  rw [isCapitalOrDigit_of_isLower small] at proper
  cases proper

theorem isSmallOrDigit_of_isUpper (capital : c.isUpper) : isSmallOrDigit c = false :=
  of_ascii (P := fun c => c.isUpper → isSmallOrDigit c = false) (by decide +kernel) (ascii_of_isUpper capital) capital

theorem startsWord_cases (starts : startsWord text) : ∃ c d rest, text = c :: d :: rest ∧ c.isUpper ∧ d.isLower := by
  unfold startsWord at starts
  split at starts
  · next c d rest => exact ⟨c, d, rest, rfl, Bool.and_eq_true_iff.mp starts⟩
  · cases starts

theorem acronymLength_eq_some {n : Nat} (found : acronymLength text = some n) :
    ∃ run c d rest, text = run ++ c :: d :: rest ∧
    run.length = n ∧ run ≠ [] ∧ (∀ x ∈ run, isCapitalOrDigit x) ∧ c.isUpper ∧ d.isLower := by
  induction text generalizing n with
  | nil => cases found
  | cons x text ih =>
    rw [acronymLength] at found
    split at found
    · next proper =>
      split at found
      · next m longer =>
        cases found
        obtain ⟨run, c, d, rest, rfl, rfl, _, all, starts⟩ := ih longer
        exact ⟨x :: run, c, d, rest, rfl, rfl, List.cons_ne_nil _ _, List.forall_mem_cons.mpr ⟨proper, all⟩, starts⟩
      · split at found
        · next starts =>
          cases found
          obtain ⟨c, d, rest, rfl, word⟩ := startsWord_cases starts
          exact ⟨[x], c, d, rest, rfl, rfl, List.cons_ne_nil _ _, List.forall_mem_singleton.mpr proper, word⟩
        · cases found
    · cases found

theorem acronymGap_of_acronymLength (none : acronymLength (c :: d :: rest) = none) :
    acronymGap c d rest.head? = false := by
  by_contra gap
  simp only [acronymGap, Bool.not_eq_false, Bool.and_eq_true] at gap
  obtain ⟨proper, capital, next⟩ := gap
  obtain ⟨e, behind, small⟩ := Option.any_eq_true .. |>.mp next
  obtain ⟨rest, rfl⟩ := List.head?_eq_some_iff.mp behind
  have starts : startsWord (d :: e :: rest) := by rw [startsWord, capital, small]; rfl
  rw [acronymLength, if_pos proper] at none
  cases longer : acronymLength (d :: e :: rest) <;> simp [longer, starts] at none

theorem spaced_behind_acronym (small : d.isLower) :
    spaced acronymGap (c :: d :: rest) = c :: d :: spaced acronymGap rest := by
  obtain ⟨low, _⟩ := Bool.or_eq_false_iff.mp (isCapitalOrDigit_of_isLower small)
  have together : acronymGap c d rest.head? = false := by rw [acronymGap, low, Bool.false_and, Bool.and_false]
  rw [spaced_of_together together,
    spaced_of_not fun e next => by rw [acronymGap, isCapitalOrDigit_of_isLower small, Bool.false_and]]

/-- Among capitals and digits the only gap is the last, in front of the start of a word. -/
theorem spaced_acronym {run : List Char} (filled : run ≠ []) (all : ∀ x ∈ run, isCapitalOrDigit x)
    (capital : c.isUpper) (small : d.isLower) :
    spaced acronymGap (run ++ c :: d :: rest) = run ++ '_' :: c :: d :: spaced acronymGap rest := by
  induction run with
  | nil => cases filled rfl
  | cons x run ih =>
    obtain ⟨proper, others⟩ := List.forall_mem_cons.mp all
    cases run with
    | nil =>
      have apart : acronymGap x c (d :: rest).head? := by simp [acronymGap, proper, capital, small]
      rw [List.singleton_append, spaced_of_gap apart, spaced_behind_acronym small, List.singleton_append]
    | cons y run =>
      -- what follows two of the run is in it or is the capital behind it
      have next : ((run ++ c :: d :: rest).head?).any Char.isLower = false := by
        cases run with
        | nil => exact isLower_of_isCapitalOrDigit (by rw [isCapitalOrDigit, capital, Bool.true_or])
        | cons z run => exact isLower_of_isCapitalOrDigit (others z (List.mem_cons_of_mem _ List.mem_cons_self))
      have together : acronymGap x y (run ++ c :: d :: rest).head? = false := by
        rw [acronymGap, next, Bool.and_false, Bool.and_false]
      have behind := ih (List.cons_ne_nil _ _) others
      rw [List.cons_append] at behind ⊢
      rw [List.cons_append, spaced_of_together together, behind]
      rfl

theorem acronymBoundary_finds : Finds acronymBoundary acronymGap where
  inner := acronymBoundary_inner
  cut cut := by
    obtain ⟨n, found, same⟩ := Option.map_eq_some_iff.mp cut
    obtain ⟨rfl, rfl⟩ := Prod.mk.inj same
    obtain ⟨run, c, d, rest, rfl, rfl, filled, all, capital, small⟩ := acronymLength_eq_some found
    rw [spaced_acronym filled all capital small, List.take_left, List.drop_left, ← List.drop_drop, List.drop_left]
    simp
  uncut none := acronymGap_of_acronymLength (Option.map_eq_none_iff.mp none)

theorem wordBoundary_finds : Finds wordBoundary wordGap where
  inner := wordBoundary_inner
  cut {text _ _} cut := by
    unfold wordBoundary at cut
    split at cut
    · next c d rest =>
      split_ifs at cut with gap
      cases cut
      -- the capital that is used up could begin no other match
      have capital : d.isUpper := (Bool.and_eq_true_iff.mp gap).2
      have single : spaced wordGap (d :: rest) = d :: spaced wordGap rest :=
        spaced_of_not fun e next => by rw [wordGap, isSmallOrDigit_of_isUpper capital, Bool.false_and]
      rw [spaced_of_gap gap, single]
      rfl
    · cases cut
  uncut none := by
    simp only [wordBoundary] at none
    split_ifs at none with gap
    simpa [wordGap] using gap

/-- The second search finds its gaps in what the first has written, and none beside an underscore. -/
theorem spaced_spaced : spaced wordGap (spaced acronymGap text) = spaced (fun c d next => acronymGap c d next ||
      wordGap c d next) text := by
  induction text with
  | nil => rfl
  | cons c rest ih =>
    cases rest with
    | nil => rfl
    | cons d rest =>
      obtain ⟨behind, same⟩ := exists_spaced_cons acronymGap d rest
      cases apart : acronymGap c d rest.head?
      case true =>
        have before (next : Option Char) : wordGap c '_' next = false := Bool.and_false _
        have after (e : Char) (next : Option Char) : wordGap '_' e next = false := Bool.false_and _
        have either : (fun c d next => acronymGap c d next || wordGap c d next) c d rest.head? := by
          simp only [apart, Bool.true_or]
        rw [spaced_of_gap apart, spaced_of_together (before _), spaced_of_not after, ih, spaced_of_gap either]
      case false =>
        rw [spaced_of_together apart, same, spaced, ← same, ih, spaced, apart, Bool.false_or]
        rfl

end Searches

section Runs
variable {gap : Gap} {text rest : List Char} {c d : Char}

/-- The text with one underscore for each run of separators, as long as it goes. -/
def collapsed (text : List Char) : List Char :=
  (text.splitBy fun c d => isSeparator c && isSeparator d).flatMap fun run => if run.all isSeparator then ['_'] else run

theorem collapsed_append {first : List Char}
    (ends : ∀ c ∈ first.getLast?, ∀ d ∈ rest.head?, (isSeparator c && isSeparator d) = false) :
    collapsed (first ++ rest) = collapsed first ++ collapsed rest := by
  rw [collapsed, List.splitBy_append ends, List.flatMap_append]
  rfl

theorem collapsed_run (filled : text ≠ []) (run : ∀ c ∈ text, isSeparator c) : collapsed text = ['_'] := by
  have chain : text.IsChain fun c d => isSeparator c && isSeparator d :=
    List.Pairwise.isChain (List.pairwise_iff_forall_sublist.mpr fun {c d} pair => by
      rw [run c (pair.subset List.mem_cons_self), run d (pair.subset (List.mem_cons_of_mem _ List.mem_cons_self))]
      rfl)
  rw [collapsed, List.splitBy_of_isChain filled chain, List.flatMap_singleton, List.all_eq_true.mpr run]
  rfl

theorem joinSeparators_eq (text : List Char) : joinSeparators text = collapsed text := by
  fun_induction joinSeparators text with
  | case1 => rfl
  | case2 c rest separator ih =>
    have run : ∀ d ∈ c :: rest.takeWhile isSeparator, isSeparator d :=
      List.forall_mem_cons.mpr ⟨separator, fun d taken => List.mem_takeWhile_imp taken⟩
    have behind : ∀ d ∈ (rest.dropWhile isSeparator).head?, isSeparator d = false := by
      intro d first
      have stops := List.head?_dropWhile_not isSeparator rest
      rw [Option.mem_def.mp first] at stops
      exact Bool.eq_false_iff.mpr (by simpa using stops)
    have parts : c :: rest = (c :: rest.takeWhile isSeparator) ++ rest.dropWhile isSeparator := by
      rw [List.cons_append, List.takeWhile_append_dropWhile]
    rw [ih, parts, collapsed_append fun c _ d first => by rw [behind d first, Bool.and_false],
      collapsed_run (List.cons_ne_nil _ _) run]
    rfl
  | case3 c rest proper ih =>
    have single : collapsed [c] = [c] := by
      simp [collapsed, List.splitBy, List.splitBy.loop, proper]
    have ends : ∀ x ∈ [c].getLast?, ∀ d ∈ rest.head?, (isSeparator x && isSeparator d) = false := by
      intro x last d _
      obtain rfl : c = x := by simpa using last
      rw [Bool.eq_false_iff.mpr proper, Bool.false_and]
    have parts := collapsed_append ends
    rw [single] at parts
    rw [ih]
    exact parts.symm

/-- Neighbours of which both come out as underscores: an underscore beside another or beside a separator. -/
def Doubles (c d : Char) : Prop :=
  (c = '_' ∧ (d = '_' ∨ isSeparator d)) ∨ (isSeparator c ∧ d = '_')

def Underscores (c d : Char) : Prop :=
  c = '_' ∧ d = '_'

theorem exists_joinSeparators_cons (c : Char) (rest : List Char) :
    ∃ behind, joinSeparators (c :: rest) = (if isSeparator c then '_' else c) :: behind := by
  rw [joinSeparators]
  split <;> exact ⟨_, rfl⟩

theorem joinSeparators_cons_cons (c d : Char) (rest : List Char) : joinSeparators (c :: d :: rest) =
    if isSeparator c && isSeparator d then joinSeparators (d :: rest) else (if isSeparator c then '_' else c) ::
      joinSeparators (d :: rest) := by
  rw [joinSeparators]
  cases first : isSeparator c <;> cases second : isSeparator d <;> simp [joinSeparators, second]

theorem isChain_joinSeparators :
    (joinSeparators text).IsChain (fun c d => ¬ Underscores c d) ↔ text.IsChain fun c d => ¬ Doubles c d := by
  have plain : isSeparator '_' = false := by decide
  induction text with
  | nil => rw [joinSeparators]; simp
  | cons c rest ih =>
    cases rest with
    | nil =>
      rw [joinSeparators]
      split <;> simp [joinSeparators]
    | cons d rest =>
      rw [joinSeparators_cons_cons, List.isChain_cons_cons]
      refine Iff.trans ?_ (and_congr_right fun _ => ih)
      split
      · next both =>
        obtain ⟨first, second⟩ := Bool.and_eq_true_iff.mp both
        have single : ¬ Doubles c d := by
          rintro (⟨rfl, _⟩ | ⟨_, rfl⟩)
          · rw [plain] at first; cases first
          · rw [plain] at second; cases second
        exact (and_iff_right single).symm
      · next different =>
        obtain ⟨behind, same⟩ := exists_joinSeparators_cons d rest
        rw [same, List.isChain_cons_cons]
        refine and_congr_left fun _ => not_congr ?_
        unfold Underscores Doubles
        grind

theorem isChain_spaced (apart : ∀ c d next, gap c d next → (c ≠ '_' ∧ isSeparator c = false) ∧ d ≠ '_' ∧
      isSeparator d = false) :
    (spaced gap text).IsChain (fun c d => ¬ Doubles c d) ↔ text.IsChain fun c d => ¬ Doubles c d := by
  induction text with
  | nil => rfl
  | cons c rest ih =>
    cases rest with
    | nil => rfl
    | cons d rest =>
      obtain ⟨behind, same⟩ := exists_spaced_cons gap d rest
      rw [List.isChain_cons_cons, ← ih, spaced]
      split
      · next between =>
        have proper := apart c d _ between
        rw [same, List.isChain_cons_cons, List.isChain_cons_cons]
        unfold Doubles
        grind
      · rw [same, List.isChain_cons_cons]

end Runs

section Snake
variable {name : String} {c d : Char} {next : Option Char}

/-- A word starts with a capital, behind a small letter or a digit, or where a small letter follows, behind a
capital or a digit. -/
def wordStart : Gap := fun c d next =>
  d.isUpper && ((c.isLower || c.isDigit) || (c.isUpper || c.isDigit) && next.any Char.isLower)

theorem wordStart_eq (ascii : c.toNat < 128) : (acronymGap c d next || wordGap c d next) = wordStart c d next := by
  have plain : c.val < 128 := ascii
  simp only [acronymGap, wordGap, wordStart, isCapitalOrDigit, isSmallOrDigit, isDecimalDigit, if_pos plain]
  cases d.isUpper with
  | false => simp only [Bool.false_and, Bool.and_false, Bool.or_false]
  | true => simp only [Bool.true_and, Bool.and_true, Bool.or_comm]

theorem wordStart_apart (starts : wordStart c d next) :
    (c ≠ '_' ∧ isSeparator c = false) ∧ d ≠ '_' ∧ isSeparator d = false := by
  have proper {x : Char} (alphanum : x.isAlphanum) : x ≠ '_' ∧ isSeparator x = false :=
    ⟨fun same => absurd (same ▸ alphanum) (by decide), isSeparator_of_isAlphanum alphanum⟩
  simp only [wordStart, Bool.and_eq_true, Bool.or_eq_true] at starts
  refine ⟨proper ?_, proper ?_⟩
  · simp only [Char.isAlphanum, Char.isAlpha, Bool.or_eq_true]
    rcases starts.2 with (small | digit) | ⟨capital | digit, _⟩
    · exact .inl (.inr small)
    · exact .inr digit
    · exact .inl (.inl capital)
    · exact .inr digit
  · simp only [Char.isAlphanum, Char.isAlpha, starts.1, Bool.true_or]

theorem underscored_eq (ascii : ∀ c ∈ name.toList, c.toNat < 128) :
    underscored name.toList = collapsed (spaced wordStart name.toList) := by
  rw [underscored, joinSeparators_eq, acronymBoundary_finds.cutAt_eq, wordBoundary_finds.cutAt_eq, spaced_spaced,
    spaced_congr fun c listed d next => wordStart_eq (ascii c listed)]

theorem underscored_ascii (ascii : ∀ c ∈ name.toList, c.toNat < 128) :
    ∀ c ∈ underscored name.toList, c.toNat < 128 := by
  intro c listed
  by_cases other : c = '_'
  · rw [other]
    decide
  · exact ascii c ((mem_underscored_iff other).mp listed).1

theorem toLower_eq_underscore_iff : c.toLower = '_' ↔ c = '_' := by
  refine ⟨fun same => ?_, fun same => by rw [same]; rfl⟩
  by_cases capital : c.isUpper
  · have small : c.toLower.isLower := by rw [Char.isLower_toLower_eq_isAlpha, Char.isAlpha, capital, Bool.true_or]
    rw [same] at small
    cases small
  · rwa [Char.toLower_eq_of_not_isUpper capital] at same

/-- The snake form of an ASCII name is found in one pass: an underscore in front of every word that starts
behind another, and one for each run of separators. Two underscores side by side come from an underscore of the
name beside another or beside a separator, and never from the start of a word. -/
theorem snake_onePass (ascii : ∀ c ∈ name.toList, c.toNat < 128) (plain : ':' ∉ name.toList) :
    (snake name).toList = (collapsed (spaced wordStart name.toList)).map Char.toLower ∧
      ((snake name).toList.IsChain (fun c d => ¬ Underscores c d) ↔ name.toList.IsChain fun c d => ¬ Doubles c d) := by
  have lower : (snake name).toList = (underscored name.toList).map Char.toLower := by
    rw [snake, String.toList_ofList, localChars, splitChars_of_plain plain, snakeChars, ← underscored,
      toLower_of_ascii (underscored_ascii ascii)]
  refine ⟨by rw [lower, underscored_eq ascii], ?_⟩
  rw [lower, underscored_eq ascii, ← joinSeparators_eq, List.isChain_map]
  simp only [Underscores, toLower_eq_underscore_iff]
  exact isChain_joinSeparators.trans (isChain_spaced fun c d next => wordStart_apart)

theorem snake_onePass_server :
    (∀ c ∈ "parseHTTP2Server-.v1Ab".toList, c.toNat < 128) ∧ ':' ∉ "parseHTTP2Server-.v1Ab".toList ∧
    (snake "parseHTTP2Server-.v1Ab").toList = "parse_http2_server_v1_ab".toList ∧
      (snake "parseHTTP2Server-.v1Ab").toList.IsChain fun c d => ¬ Underscores c d := by
  have ascii : ∀ c ∈ "parseHTTP2Server-.v1Ab".toList, c.toNat < 128 := by simp
  have plain : ':' ∉ "parseHTTP2Server-.v1Ab".toList := by decide
  obtain ⟨written, single⟩ := snake_onePass ascii plain
  refine ⟨ascii, plain, written.trans (by decide +kernel), single.mpr ?_⟩
  unfold Doubles
  decide

end Snake

end SchemaClasses.Name
