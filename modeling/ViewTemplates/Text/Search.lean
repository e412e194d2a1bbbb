/-!
Plain search for one text inside another: the first place where it stands, and whether it stands
anywhere.
-/

namespace ViewTemplates.Text

/-- What precedes and what follows the first occurrence of the pattern. -/
def splitAtFirst (pattern : List Char) : List Char → Option (List Char × List Char)
  | [] => if pattern.isEmpty then some ([], []) else none
  | c :: rest =>
      if pattern.isPrefixOf (c :: rest) then some ([], (c :: rest).drop pattern.length)
      else (splitAtFirst pattern rest).map fun (before, after) => (c :: before, after)

def contains (pattern text : List Char) : Bool := (splitAtFirst pattern text).isSome

theorem append_of_splitAtFirst {pattern text before after : List Char}
    (found : splitAtFirst pattern text = some (before, after)) :
    text = before ++ pattern ++ after := by
  induction text generalizing before with
  | nil =>
      cases pattern with
      | nil => simp_all [splitAtFirst]
      | cons head tail => simp [splitAtFirst] at found
  | cons c rest induction =>
      simp only [splitAtFirst] at found
      split at found
      next starts =>
        obtain ⟨tail, split⟩ := List.isPrefixOf_iff_prefix.mp starts
        obtain ⟨rfl, rfl⟩ : [] = before ∧ (c :: rest).drop pattern.length = after := by
          simpa using found
        rw [← split]
        simp
      next =>
        obtain ⟨⟨earlier, later⟩, inner, pair⟩ := Option.map_eq_some_iff.mp found
        obtain ⟨rfl, rfl⟩ : c :: earlier = before ∧ later = after := by simpa using pair
        simp [induction inner]

end ViewTemplates.Text
