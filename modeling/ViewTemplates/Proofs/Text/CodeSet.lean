import ViewTemplates.Text.Blank
import ViewTemplates.Text.Letter

/-!
A set of code points as the bits of one number. What a table says of many code points is so computed
in a few steps, and two tables are compared without going through their pairs.
-/

namespace ViewTemplates.Text

/-- The number that has a bit at every code of the ranges. -/
def codeSet (ranges : List (Nat × Nat)) : Nat :=
  ranges.foldr (fun range set => (1 <<< (range.2 + 1 - range.1) - 1) <<< range.1 ||| set) 0

theorem testBit_codeSet (ranges : List (Nat × Nat)) (code : Nat) :
    (codeSet ranges).testBit code = true ↔
      ∃ range ∈ ranges, range.1 ≤ code ∧ code ≤ range.2 := by
  induction ranges with
  | nil => simp [codeSet]
  | cons range rest induction =>
      have head : ((1 <<< (range.2 + 1 - range.1) - 1) <<< range.1).testBit code = true ↔
          range.1 ≤ code ∧ code ≤ range.2 := by
        rw [Nat.one_shiftLeft, Nat.testBit_shiftLeft, Nat.testBit_two_pow_sub_one]
        simp only [Bool.and_eq_true, decide_eq_true_eq]
        omega
      rw [codeSet, List.foldr_cons, Nat.testBit_or, Bool.or_eq_true, head, ← codeSet, induction]
      simp only [List.mem_cons, exists_eq_or_imp]

theorem within_eq_testBit (ranges : List (Nat × Nat)) (c : Char) :
    within ranges c = (codeSet ranges).testBit c.toNat := by
  rw [Bool.eq_iff_iff, testBit_codeSet, within, List.any_eq_true]
  simp only [Bool.and_eq_true, decide_eq_true_eq]

theorem testBit_of_apart {left right code : Nat} (apart : left &&& right = 0)
    (inside : left.testBit code = true) : right.testBit code = false := by
  have both := congrArg (·.testBit code) apart
  simpa only [Nat.testBit_and, inside, Bool.true_and, Nat.zero_testBit] using both

/-! The blanks and the characters of words. -/

theorem within_append (left right : List (Nat × Nat)) (c : Char) :
    within (left ++ right) c = (within left c || within right c) := List.any_append

theorem within_append_of_wide {small wide : List (Nat × Nat)} {c : Char}
    (ascii : ∀ range ∈ small, range.2 < 128) (far : 128 ≤ c.toNat) :
    within (small ++ wide) c = within wide c := by
  have outside : within small c = false := by
    rw [within_eq_testBit, Bool.eq_false_iff, Ne, testBit_codeSet]
    rintro ⟨range, member, -, last⟩
    have below := ascii range member
    omega
  rw [within_append, outside, Bool.false_or]

theorem forall_ascii {P : Char → Prop} (all : ∀ code < 128, P (Char.ofNat code)) {c : Char}
    (ascii : c.toNat < 128) : P c := by
  have holds := all c.toNat ascii
  rwa [Char.ofNat_toNat] at holds

def blankSet : Nat := codeSet ([(9, 13), (32, 32)] ++ wideBlanks)

theorem isBlank_eq_testBit (c : Char) : isBlank c = blankSet.testBit c.toNat := by
  rcases Nat.lt_or_ge c.toNat 128 with ascii | far
  · exact forall_ascii (P := fun c => isBlank c = blankSet.testBit c.toNat) (by decide +kernel)
      ascii
  · rw [isBlank, if_neg (Nat.not_lt.mpr far), blankSet, ← within_eq_testBit,
      within_append_of_wide (by decide) far]

def wordSet : Nat :=
  codeSet ([(48, 57), (65, 90), (95, 95), (97, 122)] ++
    (wideLetters ++ marks ++ wideDigits ++ wideConnectors))

theorem isWordChar_eq_testBit (c : Char) : isWordChar c = wordSet.testBit c.toNat := by
  rcases Nat.lt_or_ge c.toNat 128 with ascii | far
  · exact forall_ascii (P := fun c => isWordChar c = wordSet.testBit c.toNat) (by decide +kernel)
      ascii
  · rw [isWordChar, if_neg (Nat.not_lt.mpr far), wordSet, ← within_eq_testBit,
      within_append_of_wide (by decide) far, within_append, within_append, within_append]

theorem isWordChar_of_isBlank {c : Char} (blank : isBlank c = true) : isWordChar c = false := by
  have apart : blankSet &&& wordSet = 0 := by decide +kernel
  rw [isBlank_eq_testBit] at blank
  rw [isWordChar_eq_testBit]
  exact testBit_of_apart apart blank

end ViewTemplates.Text
