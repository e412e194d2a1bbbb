import ViewTemplates.Config
import ViewTemplates.Proofs.Text.Search

/-!
Texts that need a binding. The search settles on the first opening marker. No later one could do
better: what stands behind it stands behind the first one as well, also where the markers are equal,
overlap or are empty.
-/

namespace ViewTemplates.Interpolation

variable {markers : Interpolation}

/-- The text falls into five parts: the second is the opening marker, the fourth the closing one. -/
def Divides (markers : Interpolation) (text before between after : String) : Prop :=
  text = before ++ markers.opening ++ between ++ markers.closing ++ after

/-- No opening marker in the text has less in front of it. -/
def Leftmost (markers : Interpolation) (text before : String) : Prop :=
  ∀ earlier later : String, text = earlier ++ markers.opening ++ later →
    before.length ≤ earlier.length

theorem toList_eq_iff {text before after : String} :
    text.toList = before.toList ++ markers.opening.toList ++ after.toList ↔
      text = before ++ markers.opening ++ after := by
  rw [← String.toList_append, ← String.toList_append, String.toList_inj]

theorem divides_iff {text before between after : String} :
    markers.Divides text before between after ↔
      text = before ++ markers.opening ++ (between ++ markers.closing ++ after) := by
  simp only [Divides, String.append_assoc]

/-- The answer is given by the first opening marker alone. -/
theorem requiresBinding_of_splitAtFirst {text : String} {before after : List Char}
    (found : Text.splitAtFirst markers.opening.toList text.toList = some (before, after)) :
    markers.requiresBinding text = true ↔ markers.closing.toList <:+: after := by
  rw [requiresBinding, found, Text.contains_iff_isInfix]

/-- Any two markers in the right order are enough. -/
theorem Divides.requiresBinding {text before between after : String}
    (divides : markers.Divides text before between after) :
    markers.requiresBinding text = true := by
  have split := toList_eq_iff.mpr (divides_iff.mp divides)
  obtain ⟨_, behind, found⟩ := Text.exists_splitAtFirst split
  -- the search looks behind the first marker, which need not be the one that divides the text
  have kept := Text.suffix_of_splitAtFirst found split
  have closed : markers.closing.toList <:+: (between ++ markers.closing ++ after).toList :=
    ⟨between.toList, after.toList, by simp only [String.toList_append]⟩
  exact (requiresBinding_of_splitAtFirst found).mpr (closed.trans kept.isInfix)

/-- A text that needs a binding has its first opening marker in front of a closing one. -/
theorem exists_leftmost {text : String} (needed : markers.requiresBinding text = true) :
    ∃ before between after, markers.Divides text before between after ∧
      markers.Leftmost text before := by
  cases found : Text.splitAtFirst markers.opening.toList text.toList with
  | none => simp [Interpolation.requiresBinding, found] at needed
  | some pair =>
      obtain ⟨front, behind⟩ := pair
      obtain ⟨inner, last, parts⟩ := (requiresBinding_of_splitAtFirst found).mp needed
      refine ⟨String.ofList front, String.ofList inner, String.ofList last, ?_, ?_⟩
      · rw [divides_iff, ← toList_eq_iff, Text.append_of_splitAtFirst found, ← parts]
        simp only [String.toList_append, String.toList_ofList]
      · intro earlier later split
        rw [String.length_ofList]
        exact Text.length_le_of_splitAtFirst found (toList_eq_iff.mpr split)

theorem Divides.append {text before between after : String}
    (divides : markers.Divides text before between after) (left right : String) :
    markers.Divides (left ++ text ++ right) (left ++ before) between (after ++ right) := by
  rw [Divides, divides]
  simp only [String.append_assoc]

/-- The search for markers is complete: it finds a binding exactly if the text can be divided at an
opening and a closing marker in any way, which is then possible at its first opening marker, and
whatever is put around such a text takes nothing away. -/
theorem requiresBinding_complete (markers : Interpolation) (text : String) :
    (markers.requiresBinding text = true ↔
      ∃ before between after, markers.Divides text before between after) ∧
    (markers.requiresBinding text = true ↔
      ∃ before between after, markers.Divides text before between after ∧
        markers.Leftmost text before) ∧
    (markers.requiresBinding text = true →
      ∀ left right : String, markers.requiresBinding (left ++ text ++ right) = true) := by
  refine ⟨⟨fun needed => ?_, ?_⟩, ⟨exists_leftmost, ?_⟩, fun needed left right => ?_⟩
  · obtain ⟨before, between, after, divides, -⟩ := exists_leftmost needed
    exact ⟨before, between, after, divides⟩
  · rintro ⟨before, between, after, divides⟩
    exact divides.requiresBinding
  · rintro ⟨before, between, after, divides, -⟩
    exact divides.requiresBinding
  · obtain ⟨before, between, after, divides, -⟩ := exists_leftmost needed
    exact (divides.append left right).requiresBinding

/-! Markers that overlap: the closing one ends the opening one as well. -/

def brackets : Interpolation := ⟨"[[", "["⟩

theorem requiresBinding_complete_brackets :
    brackets.Divides "ä[[[ß" "ä" "" "ß" ∧ brackets.requiresBinding "ä[[[ß" = true ∧
      brackets.requiresBinding ("[" ++ "ä[[[ß" ++ "]") = true ∧
      ¬∃ before between after, brackets.Divides "ä[[ß" before between after := by
  have divides : brackets.Divides "ä[[[ß" "ä" "" "ß" := by
    rw [Divides]
    decide
  have refused : brackets.requiresBinding "ä[[ß" = false := by decide
  obtain ⟨found, -, extended⟩ := requiresBinding_complete brackets "ä[[[ß"
  obtain ⟨absent, -, -⟩ := requiresBinding_complete brackets "ä[[ß"
  have needed := found.mpr ⟨_, _, _, divides⟩
  refine ⟨divides, needed, extended needed "[" "]", fun divided => ?_⟩
  rw [absent.mpr divided] at refused
  cases refused

end ViewTemplates.Interpolation
