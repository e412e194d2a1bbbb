import Mathlib.Data.List.SplitBy
import ViewTemplates.Proofs.Text.Case
import ViewTemplates.Proofs.Text.Search

/-!
A text without its outer blanks; the words of a text, from its left end; and lower case. Blanks stay
as they are and nothing else becomes a blank, and no letter looks past a blank, so the words of a
lowered text are the words of the text, lowered.
-/

namespace ViewTemplates.Text

/-! Outer blanks. -/

theorem dropWhile_isBlank {text : List Char} (first : ∀ c ∈ text.head?, isBlank c = false) :
    text.dropWhile isBlank = text := by
  have spans : text.takeWhile isBlank = [] ∧ text.dropWhile isBlank = text :=
    span_iff.mpr ⟨rfl, List.forall_mem_nil _, first⟩
  exact spans.2

theorem trim_eq_self {text : List Char} (first : ∀ c ∈ text.head?, isBlank c = false)
    (last : ∀ c ∈ text.getLast?, isBlank c = false) : trim text = text := by
  rw [← List.head?_reverse] at last
  rw [trim, dropWhile_isBlank first, dropWhile_isBlank last, List.reverse_reverse]

/-- A text that does not begin with a blank begins as before when it is trimmed. -/
theorem exists_trim_cons {c : Char} (plain : isBlank c = false) (rest : List Char) :
    ∃ kept, trim (c :: rest) = c :: kept := by
  have first : ∀ d ∈ (c :: rest).head?, isBlank d = false := by
    rintro _ ⟨⟩
    exact plain
  rw [trim, dropWhile_isBlank first, List.reverse_cons, List.dropWhile_append]
  split
  · exact ⟨[], by simp [plain]⟩
  · exact ⟨(rest.reverse.dropWhile isBlank).reverse, by simp⟩

/-! Words from the left. -/

theorem splitBy_alike {kind : Bool} {run : List Char} (nonempty : run ≠ [])
    (alike : ∀ c ∈ run, isBlank c = kind) :
    (run.splitBy fun left right => isBlank left == isBlank right) = [run] := by
  apply List.splitBy_of_isChain nonempty
  apply List.Pairwise.isChain
  refine List.Pairwise.imp_of_mem (fun {left right} first second _ => ?_)
    (List.pairwise_of_forall fun _ _ => trivial)
  rw [alike left first, alike right second, beq_self_eq_true]

/-- Cut where the text changes from one sort of character to the other. -/
theorem splitBy_run {kind : Bool} {run rest : List Char} (nonempty : run ≠ [])
    (alike : ∀ c ∈ run, isBlank c = kind) (changes : ∀ c ∈ rest.head?, isBlank c = !kind) :
    ((run ++ rest).splitBy fun left right => isBlank left == isBlank right) =
      run :: rest.splitBy fun left right => isBlank left == isBlank right := by
  rw [List.splitBy_append, splitBy_alike nonempty alike]
  · rfl
  · intro last ends first begins
    rw [alike last (List.mem_of_getLast? ends), changes first begins]
    cases kind <;> rfl

/-- A word at the left end, with a blank behind it or nothing. -/
theorem words_run {run rest : List Char} (nonempty : run ≠ [])
    (inside : ∀ c ∈ run, isBlank c = false) (ends : ∀ c ∈ rest.head?, isBlank c = true) :
    words (run ++ rest) = run :: words rest := by
  have word : (!run.any isBlank) = true := by
    rw [Bool.not_eq_true', List.any_eq_false]
    intro c member
    rw [inside c member]
    decide
  rw [words, splitBy_run nonempty inside ends, List.filter_cons, if_pos word, words]

theorem words_blanks {blanks rest : List Char} (inside : ∀ c ∈ blanks, isBlank c = true)
    (ends : ∀ c ∈ rest.head?, isBlank c = false) : words (blanks ++ rest) = words rest := by
  cases blanks with
  | nil => rfl
  | cons c more =>
      have gap : ¬(!(c :: more).any isBlank) = true := by
        rw [List.any_cons, inside c (List.mem_cons_self ..), Bool.true_or]
        decide
      rw [words, splitBy_run (List.cons_ne_nil c more) inside ends, List.filter_cons, if_neg gap,
        words]

/-- A blank at the left end is passed over. -/
theorem words_cons {c : Char} {rest : List Char} (blank : isBlank c = true) :
    words (c :: rest) = words rest := by
  obtain ⟨front, back, rfl, inside, ends⟩ := exists_span isBlank rest
  rw [← List.cons_append, words_blanks (List.forall_mem_cons.mpr ⟨blank, inside⟩) ends,
    words_blanks inside ends]

/-! Blanks and lower case. -/

/-- The codes of all blanks, one by one. -/
def blankCodes : List Nat :=
  ((9, 13) :: (32, 32) :: wideBlanks).flatMap fun run => List.range' run.1 (run.2 + 1 - run.1)

theorem mem_blankCodes {c : Char} (blank : isBlank c = true) : c.toNat ∈ blankCodes := by
  have covered {run : Nat × Nat} (member : run ∈ (9, 13) :: (32, 32) :: wideBlanks)
      (first : run.1 ≤ c.toNat) (last : c.toNat ≤ run.2) : c.toNat ∈ blankCodes := by
    refine List.mem_flatMap.mpr ⟨run, member, ?_⟩
    rw [List.mem_range'_1]
    omega
  rw [isBlank] at blank
  split at blank
  next =>
    simp only [Bool.or_eq_true, beq_iff_eq, Bool.and_eq_true, decide_eq_true_eq] at blank
    rcases blank with rfl | ⟨first, last⟩
    · decide +kernel
    · exact covered (List.mem_cons_self ..) first last
  next =>
    obtain ⟨run, member, covers⟩ := List.any_eq_true.mp blank
    simp only [Bool.and_eq_true, decide_eq_true_eq] at covers
    exact covered (List.mem_cons_of_mem _ (List.mem_cons_of_mem _ member)) covers.1 covers.2

/-- A blank is its own lower case, and no letter looks past it. -/
theorem blank_lower {c : Char} (blank : isBlank c = true) :
    isTransparent c = false ∧ isCased c = false ∧ c ≠ 'Σ' ∧ lowerChar c = [c] := by
  have all : ∀ code ∈ blankCodes, isTransparent (Char.ofNat code) = false ∧
      isCased (Char.ofNat code) = false ∧ Char.ofNat code ≠ 'Σ' ∧
        lowerChar (Char.ofNat code) = [Char.ofNat code] := by
    decide +kernel
  have same := all c.toNat (mem_blankCodes blank)
  rwa [Char.ofNat_toNat] at same

theorem meetsCased_append {c : Char} (blank : isBlank c = true) (text rest : List Char) :
    meetsCased (text ++ c :: rest) = meetsCased text := by
  obtain ⟨solid, uncased, -, -⟩ := blank_lower blank
  induction text with
  | nil => simp [meetsCased, solid, uncased]
  | cons d more induction =>
      simp only [meetsCased, List.cons_append, List.dropWhile_cons] at induction ⊢
      split
      next => exact induction
      next => rfl

/-- What stands before a blank does not count behind it. -/
theorem lowerAfter_append_left {c : Char} (blank : isBlank c = true) (before far text : List Char) :
    lowerAfter (before ++ c :: far) text = lowerAfter before text := by
  induction text generalizing before with
  | nil => rfl
  | cons d rest induction =>
      rw [lowerAfter, lowerAfter, meetsCased_append blank, ← List.cons_append, induction]

theorem lowerAfter_append {c : Char} (blank : isBlank c = true) (before text rest : List Char) :
    lowerAfter before (text ++ c :: rest) = lowerAfter before text ++ c :: lower rest := by
  induction text generalizing before with
  | nil =>
      obtain ⟨-, -, other, same⟩ := blank_lower blank
      have far := lowerAfter_append_left blank [] before rest
      rw [List.nil_append] at far
      change lowerAfter before (c :: rest) = c :: lower rest
      rw [lowerAfter, if_neg (by simpa using other), same, far]
      rfl
  | cons d more induction =>
      rw [List.cons_append, lowerAfter, lowerAfter, meetsCased_append blank, induction,
        List.append_assoc]

theorem lower_append {c : Char} (blank : isBlank c = true) (text rest : List Char) :
    lower (text ++ c :: rest) = lower text ++ c :: lower rest :=
  lowerAfter_append blank [] text rest

theorem lower_cons {c : Char} (blank : isBlank c = true) (rest : List Char) :
    lower (c :: rest) = c :: lower rest :=
  lower_append blank [] rest

theorem lower_eq_nil {text : List Char} : lower text = [] ↔ text = [] := by
  have lowered : Text.lowered (String.ofList text) = "" ↔ _ := lowered_eq_empty
  rwa [Text.lowered, String.toList_ofList, String.ofList_eq_empty_iff,
    String.ofList_eq_empty_iff] at lowered

/-- A text that does not begin with a blank begins with a word. -/
theorem exists_run {c : Char} {rest : List Char} (plain : isBlank c = false) :
    ∃ run tail, c :: rest = run ++ tail ∧ run ≠ [] ∧ (∀ d ∈ run, isBlank d = false) ∧
      ∀ d ∈ tail.head?, isBlank d = true := by
  obtain ⟨run, tail, split, inside, ends⟩ := exists_span (!isBlank ·) (c :: rest)
  refine ⟨run, tail, split, ?_, by simpa using inside, by simpa using ends⟩
  rintro rfl
  have first := ends c (by rw [← List.nil_append tail, ← split]; rfl)
  rw [plain] at first
  cases first

/-- The words of a lowered text are its words, lowered. -/
theorem words_lower (text : List Char) : words (lower text) = (words text).map lower := by
  match text with
  | [] => rfl
  | c :: rest =>
      cases blank : isBlank c with
      | true => rw [lower_cons blank, words_cons blank, words_cons blank, words_lower rest]
      | false =>
          obtain ⟨run, tail, split, nonempty, inside, ends⟩ := exists_run blank
          have lowRun : lower run ≠ [] := fun nothing => nonempty (lower_eq_nil.mp nothing)
          have lowInside : ∀ d ∈ lower run, isBlank d = false := isBlank_of_mem_lower inside
          rw [split, words_run nonempty inside ends, List.map_cons]
          cases tail with
          | nil =>
              have single : words (lower run ++ []) = [lower run] :=
                words_run lowRun lowInside nofun
              rw [List.append_nil] at single ⊢
              exact single
          | cons b more =>
              have space : isBlank b = true := ends b rfl
              have shorter : more.length < (c :: rest).length := by
                rw [split, List.length_append, List.length_cons]
                omega
              rw [lower_append space, words_run lowRun lowInside (by simpa using space),
                words_cons space, words_cons space, words_lower more]
termination_by text.length
decreasing_by
  · exact shorter
  · exact Nat.lt_succ_self _

end ViewTemplates.Text
