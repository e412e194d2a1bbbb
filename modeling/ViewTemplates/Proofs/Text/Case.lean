import ViewTemplates.Proofs.Selector.Lowering
import ViewTemplates.Proofs.Text.CodeSet

/-!
What lower case does to a character. The runs of capitals lie such that no lower case letter is a
capital again, that no letter turns into punctuation or a blank, and that what stands inside words
goes on to do so.
-/

namespace ViewTemplates.Text

/-- The character is its own lower case, wherever it stands. -/
def IsLow (c : Char) : Prop := c ≠ 'Σ' ∧ lowerChar c = [c]

instance (c : Char) : Decidable (IsLow c) := inferInstanceAs (Decidable (_ ∧ _))

/-- What a lower case letter has from the character that it comes of. -/
structure Lowers (c d : Char) : Prop where
  low : IsLow d
  punctuation : c.toNat < 65 ∨ d.toNat < 97 → d = c
  plain : isBlank c = false → isBlank d = false
  word : isWordChar c = true → isWordChar d = true

theorem lowers_iff {c d : Char} : Lowers c d ↔ IsLow d ∧ (c.toNat < 65 ∨ d.toNat < 97 → d = c) ∧
    (isBlank c = false → isBlank d = false) ∧ (isWordChar c = true → isWordChar d = true) :=
  ⟨fun ⟨low, punctuation, plain, word⟩ => ⟨low, punctuation, plain, word⟩,
    fun ⟨low, punctuation, plain, word⟩ => ⟨low, punctuation, plain, word⟩⟩

instance (c d : Char) : Decidable (Lowers c d) := decidable_of_iff' _ lowers_iff

/-! What the tables say. -/

/-- The codes of the characters outside ASCII that are not their own lower case. -/
def capitalCodes : List Nat := 'Σ'.toNat :: 'İ'.toNat :: wideMoves.map Prod.fst

def capitalSet : Nat := codeSet (capitalCodes.map fun code => (code, code))

theorem testBit_capitalSet {code : Nat} (member : code ∈ capitalCodes) :
    capitalSet.testBit code = true :=
  (testBit_codeSet _ _).mpr ⟨_, List.mem_map_of_mem member, Nat.le_refl _, Nat.le_refl _⟩

theorem lowers_ascii : ∀ code < 128, Lowers (Char.ofNat code) (Char.ofNat code).toLower := by
  decide +kernel

theorem lowers_marked :
    (Lowers 'İ' 'i' ∧ Lowers 'İ' '\u0307') ∧ Lowers 'Σ' 'ς' ∧ Lowers 'Σ' 'σ' := by
  decide +kernel

theorem checked_wideMoves : (wideMoves.all fun move =>
    !capitalSet.testBit move.2 && !blankSet.testBit move.2 &&
      (!wordSet.testBit move.1 || wordSet.testBit move.2)) = true := by
  decide +kernel

/-! Characters. -/

theorem isLow_of_testBit {c : Char} (far : 97 ≤ c.toNat)
    (clear : capitalSet.testBit c.toNat = false) : IsLow c := by
  have apart : c.toNat ∉ capitalCodes := fun member =>
    Bool.false_ne_true (clear.symm.trans (testBit_capitalSet member))
  constructor
  · rintro rfl
    exact apart List.mem_cons_self
  · have dotless : c ≠ 'İ' := by
      rintro rfl
      exact apart (List.mem_cons_of_mem _ List.mem_cons_self)
    have unmoved : wideCapitals.find? (·.holds c.toNat) = none := by
      -- A run that holds the character would have it among the capitals.
      refine List.find?_eq_none.mpr fun run among holds => ?_
      have positive := (low_of_mem_wideCapitals run among).1
      have bounds := holds
      simp only [CaseRun.holds, Bool.and_eq_true, decide_eq_true_eq] at bounds
      have moved : (c.toNat, (c.toNat + run.shift).toNat) ∈ wideMoves :=
        List.mem_flatMap.mpr ⟨run, among, CaseRun.mem_moves holds (by omega) (by omega)⟩
      have capital : c.toNat ∈ wideMoves.map Prod.fst := List.mem_map.mpr ⟨_, moved, rfl⟩
      exact apart (List.mem_cons_of_mem _ (List.mem_cons_of_mem _ capital))
    rw [lowerChar, unmoved, toLower_eq_self (by omega)]
    simp [dotless]

theorem lowers_of_mem_wideMoves {c d : Char} (wide : 128 ≤ c.toNat) (far : 97 ≤ d.toNat)
    (moved : (c.toNat, d.toNat) ∈ wideMoves) : Lowers c d := by
  have checked := List.all_eq_true.mp checked_wideMoves _ moved
  simp only [Bool.and_eq_true, Bool.or_eq_true, Bool.not_eq_true'] at checked
  obtain ⟨⟨clear, plain⟩, word⟩ := checked
  constructor
  case low => exact isLow_of_testBit far clear
  case punctuation => omega
  case plain =>
    rw [isBlank_eq_testBit d]
    exact fun _ => plain
  case word =>
    rw [isWordChar_eq_testBit, isWordChar_eq_testBit]
    exact fun inside => word.resolve_left (by simp [inside])

theorem lowers_of_mem_lowerChar {c d : Char} (other : c ≠ 'Σ') (member : d ∈ lowerChar c) :
    Lowers c d := by
  rcases mem_lowerChar member with
    ⟨ascii, rfl⟩ | ⟨rfl, rfl | rfl⟩ | ⟨wide, far, moved⟩ | ⟨-, rfl, same⟩
  · exact forall_ascii (P := fun c => Lowers c c.toLower) lowers_ascii ascii
  · exact lowers_marked.1.1
  · exact lowers_marked.1.2
  · exact lowers_of_mem_wideMoves wide far moved
  · exact ⟨⟨other, same⟩, fun _ => rfl, id, id⟩

/-! Texts. -/

variable {text : List Char}

theorem exists_lowers {d : Char} (member : d ∈ lower text) : ∃ c ∈ text, Lowers c d := by
  obtain ⟨c, inside, ⟨rfl, rfl | rfl⟩ | ⟨other, found⟩⟩ := mem_lower member
  · exact ⟨'Σ', inside, lowers_marked.2.1⟩
  · exact ⟨'Σ', inside, lowers_marked.2.2⟩
  · exact ⟨c, inside, lowers_of_mem_lowerChar other found⟩

theorem lower_eq_self (low : ∀ c ∈ text, IsLow c) : lower text = text := by
  suffices after : ∀ before, lowerAfter before text = text from after []
  induction text with
  | nil => exact fun _ => rfl
  | cons c rest induction =>
      obtain ⟨⟨other, same⟩, behind⟩ := List.forall_mem_cons.mp low
      intro before
      rw [lowerAfter, if_neg (by simpa using other), same, induction behind, List.singleton_append]

theorem lower_lower (text : List Char) : lower (lower text) = lower text := by
  refine lower_eq_self fun d member => ?_
  obtain ⟨c, -, lowers⟩ := exists_lowers member
  exact lowers.low

/-- Lower case is a normal form. -/
theorem lowered_idem (text : String) : lowered (lowered text) = lowered text := by
  rw [lowered, lowered, String.toList_ofList, lower_lower]

theorem mem_of_mem_lower {c : Char} (small : c.toNat < 97) (member : c ∈ lower text) :
    c ∈ text := by
  obtain ⟨source, inside, lowers⟩ := exists_lowers member
  rw [lowers.punctuation (.inr small)]
  exact inside

theorem isBlank_of_mem_lower (plain : ∀ c ∈ text, isBlank c = false) :
    ∀ d ∈ lower text, isBlank d = false := by
  intro d member
  obtain ⟨c, inside, lowers⟩ := exists_lowers member
  exact lowers.plain (plain c inside)

end ViewTemplates.Text
