import ViewTemplates.Text.Case

/-!
Lower case and ASCII case. A lowered text has no ASCII capital, so where both sides were lowered,
forgetting ASCII case forgets nothing.
-/

namespace ViewTemplates.Text

theorem toLower_eq_self {c : Char} (noCapital : c.toNat < 65 ∨ 90 < c.toNat) : c.toLower = c := by
  refine dif_neg ?_
  rintro ⟨first, last⟩
  have lower : 65 ≤ c.toNat := first
  have upper : c.toNat ≤ 90 := last
  omega

theorem toLower_toLower (c : Char) : c.toLower.toLower = c.toLower := by
  rcases Decidable.em (c.toNat < 65 ∨ 90 < c.toNat) with noCapital | capital
  · rw [toLower_eq_self noCapital, toLower_eq_self noCapital]
  · apply toLower_eq_self
    have range : 65 ≤ c.val.toNat ∧ c.val.toNat ≤ 90 := by
      rw [not_or] at capital
      exact ⟨Nat.le_of_not_lt capital.1, Nat.le_of_not_lt capital.2⟩
    have isCapital : c.val ≥ 'A'.val ∧ c.val ≤ 'Z'.val := range
    have shifted : c.toLower.toNat = (c.val + 32).toNat :=
      congrArg Char.toNat (dif_pos isCapital)
    have moved : (c.val + 32).toNat = (c.val.toNat + 32) % 2 ^ 32 := UInt32.toNat_add _ _
    omega

/-- The lower case of the run is made of characters, and of none before the small ASCII letters. -/
theorem low_of_mem_wideCapitals : ∀ run ∈ wideCapitals, 97 ≤ (run.first : Int) + run.shift ∧
    (run.last + run.shift < 0xd800 ∨ 0xdfff < run.first + run.shift ∧
      run.last + run.shift < 0x110000) := by
  decide +kernel

/-- The codes of the run, each with the code of its lower case. -/
def CaseRun.moves (run : CaseRun) : List (Nat × Nat) :=
  (List.range ((run.last - run.first) / run.step + 1)).map fun place =>
    (run.first + run.step * place, (run.first + run.shift).toNat + run.step * place)

theorem CaseRun.mem_moves {run : CaseRun} {code image : Nat} (holds : run.holds code = true)
    (positive : 0 ≤ (run.first : Int) + run.shift) (moved : (image : Int) = code + run.shift) :
    (code, image) ∈ run.moves := by
  simp only [CaseRun.holds, Bool.and_eq_true, decide_eq_true_eq, beq_iff_eq] at holds
  obtain ⟨⟨first, last⟩, steps⟩ := holds
  have whole : run.step * ((code - run.first) / run.step) = code - run.first :=
    Nat.mul_div_cancel' (Nat.dvd_of_mod_eq_zero steps)
  refine List.mem_map.mpr ⟨(code - run.first) / run.step, List.mem_range.mpr ?_, ?_⟩
  · exact Nat.lt_succ_of_le (Nat.div_le_div_right (by omega))
  · rw [whole, Prod.mk.injEq]
    omega

def wideMoves : List (Nat × Nat) := wideCapitals.flatMap CaseRun.moves

/-- A character is left as it is or moved with the run that it is in, save the ASCII letters and a
dotted capital. -/
theorem mem_lowerChar {c d : Char} (member : d ∈ lowerChar c) :
    c.toNat < 128 ∧ d = c.toLower ∨ c = 'İ' ∧ (d = 'i' ∨ d = '\u0307') ∨
      128 ≤ c.toNat ∧ 97 ≤ d.toNat ∧ (c.toNat, d.toNat) ∈ wideMoves ∨
      128 ≤ c.toNat ∧ d = c ∧ lowerChar c = [c] := by
  rw [lowerChar] at member
  split at member
  next ascii => exact .inl ⟨ascii, List.mem_singleton.mp member⟩
  next wide =>
    have far : 128 ≤ c.toNat := Nat.not_lt.mp wide
    split at member
    next dotted => exact .inr (.inl ⟨beq_iff_eq.mp dotted, by simpa using member⟩)
    next dotless =>
      split at member
      next run found =>
        have holds := List.find?_some found
        have among := List.mem_of_find?_eq_some found
        obtain ⟨positive, range⟩ := low_of_mem_wideCapitals run among
        have bounds := holds
        simp only [CaseRun.holds, Bool.and_eq_true, decide_eq_true_eq] at bounds
        have valid : (c.toNat + run.shift).toNat.isValidChar := by
          rw [Nat.isValidChar]
          omega
        have code : d.toNat = (c.toNat + run.shift).toNat := by
          rw [List.mem_singleton.mp member]
          exact congrArg Char.toNat (dif_pos valid)
        refine .inr (.inr (.inl ⟨far, by omega, List.mem_flatMap.mpr ⟨run, among, ?_⟩⟩))
        exact CaseRun.mem_moves holds (by omega) (by omega)
      next none =>
        refine .inr (.inr (.inr ⟨far, List.mem_singleton.mp member, ?_⟩))
        rw [lowerChar, if_neg wide, if_neg dotless, none]

theorem toLower_of_mem_lowerChar {c d : Char} (member : d ∈ lowerChar c) : d.toLower = d := by
  rcases mem_lowerChar member with
    ⟨-, rfl⟩ | ⟨-, rfl | rfl⟩ | ⟨-, far, -⟩ | ⟨far, rfl, -⟩
  · exact toLower_toLower c
  · decide
  · decide
  · exact toLower_eq_self (by omega)
  · exact toLower_eq_self (by omega)

/-- What the characters of a lowered text are made of. -/
theorem mem_lower {text : List Char} {d : Char} (member : d ∈ lower text) :
    ∃ c ∈ text, c = 'Σ' ∧ (d = 'ς' ∨ d = 'σ') ∨ c ≠ 'Σ' ∧ d ∈ lowerChar c := by
  suffices after : ∀ before, d ∈ lowerAfter before text →
      ∃ c ∈ text, c = 'Σ' ∧ (d = 'ς' ∨ d = 'σ') ∨ c ≠ 'Σ' ∧ d ∈ lowerChar c from after [] member
  clear member
  induction text with
  | nil => exact nofun
  | cons first rest induction =>
      intro before member
      rw [lowerAfter] at member
      rcases List.mem_append.mp member with head | tail
      · refine ⟨first, List.mem_cons_self, ?_⟩
        split at head
        next sigma =>
          refine .inl ⟨beq_iff_eq.mp sigma, ?_⟩
          rw [List.mem_singleton.mp head]
          split
          · exact .inl rfl
          · exact .inr rfl
        next other => exact .inr ⟨fun sigma => other (beq_iff_eq.mpr sigma), head⟩
      · obtain ⟨c, inside, found⟩ := induction _ tail
        exact ⟨c, List.mem_cons_of_mem _ inside, found⟩

theorem toLower_of_mem_lower {text : List Char} {d : Char} (member : d ∈ lower text) :
    d.toLower = d := by
  obtain ⟨c, -, ⟨-, rfl | rfl⟩ | ⟨-, found⟩⟩ := mem_lower member
  · decide
  · decide
  · exact toLower_of_mem_lowerChar found

/-- A text without ASCII capitals. -/
def Lowered (text : String) : Prop := text.toList.map Char.toLower = text.toList

theorem lowered_lowered (text : String) : Lowered (lowered text) := by
  rw [Lowered, lowered, String.toList_ofList]
  conv => rhs; rw [← List.map_id (lower text.toList)]
  exact List.map_congr_left fun c member => toLower_of_mem_lower member

theorem sameLetters_iff {left right : String} (leftLow : Lowered left) (rightLow : Lowered right) :
    sameLetters left right = true ↔ left = right := by
  rw [sameLetters, leftLow, rightLow, beq_iff_eq, String.toList_inj]

theorem lowerChar_ne_nil (c : Char) : lowerChar c ≠ [] := by
  unfold lowerChar
  split
  next => exact List.cons_ne_nil _ _
  next =>
    split
    next => exact List.cons_ne_nil _ _
    next => split <;> exact List.cons_ne_nil _ _

/-- Lowering leaves nothing only of nothing. -/
theorem lowered_eq_empty {text : String} : lowered text = "" ↔ text = "" := by
  rw [lowered, ← String.toList_inj, String.toList_ofList, ← String.toList_eq_nil_iff]
  cases text.toList with
  | nil => exact iff_of_true rfl rfl
  | cons c rest =>
      refine iff_of_false (fun nothing => ?_) (List.cons_ne_nil c rest)
      obtain ⟨first, -⟩ := List.append_eq_nil_iff.mp nothing
      split at first
      next => exact List.cons_ne_nil _ _ first
      next => exact lowerChar_ne_nil c first

end ViewTemplates.Text
