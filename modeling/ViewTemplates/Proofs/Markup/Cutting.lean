import ViewTemplates.Proofs.Markup.Rereading

/-!
Markup cut between its tokens. A token is read from the front of a text, and how much of the rest
stands behind it does not change it. So what stands before a token has the tokens before it, what
begins at a token has the tokens from there on, and a fault belongs to the text from one place on.
-/

namespace ViewTemplates.Markup

open Text

/-! What is read does not depend on the rest. -/

/-- The reader takes a front of the text, and gives the same with any rest that begins alike. -/
def Takes (read : List Char → Except Blame (α × List Char)) (source : List Char) (value : α)
    (rest : List Char) : Prop :=
  ∃ front, source = front ++ rest ∧
    ∀ kept, BeginsLike kept rest → read (front ++ kept) = .ok (value, kept)

/-- What begins with no quotation mark is a value without quotes, or none. -/
theorem readValue_bare {source : List Char} (plain : ∀ c ∈ source.head?, ¬(c = '"' ∨ c = '\'')) :
    readValue source = .ok (source.takeWhile isBareChar, source.dropWhile isBareChar) := by
  cases source with
  | nil => rfl
  | cons c rest => exact if_neg (plain c rfl)

theorem takes_readValue {source value rest : List Char}
    (read : readValue source = .ok (value, rest)) : Takes readValue source value rest := by
  cases source with
  | nil =>
      cases read
      refine ⟨[], rfl, fun kept alike => ?_⟩
      cases kept with
      | nil => rfl
      | cons c tail => cases alike c rfl
  | cons quote text =>
      by_cases quoted : quote = '"' ∨ quote = '\''
      · rw [readValue, if_pos quoted] at read
        split at read
        next => cases read
        next closing after dropped =>
          cases read
          obtain ⟨whole, ends⟩ := span_cut [closing] dropped
          refine ⟨quote :: (text.takeWhile (· != quote) ++ [closing]), ?_, fun kept alike => ?_⟩
          · rw [List.cons_append, ← whole]
          · obtain ⟨taken, left⟩ := ends kept (alike.append _)
            rw [List.cons_append, readValue, if_pos quoted, left, taken]
            rfl
      · have plain : ∀ c ∈ (quote :: text).head?, ¬(c = '"' ∨ c = '\'') := by
          rintro _ ⟨⟩
          exact quoted
        rw [readValue_bare plain] at read
        cases read
        obtain ⟨whole, ends⟩ := span_cut (p := isBareChar) [] (List.nil_append _).symm
        rw [List.append_nil] at whole ends
        refine ⟨_, whole, fun kept alike => ?_⟩
        have begins : BeginsLike ((quote :: text).takeWhile isBareChar ++ kept)
            (quote :: text) := by
          conv => rhs; rw [whole]
          exact alike.append _
        obtain ⟨taken, left⟩ := ends kept alike
        rw [readValue_bare fun c head => plain c (begins c head), taken, left]
        rfl

theorem takes_readAttribute {source rest : List Char} {entry : String × String}
    (read : readAttribute source = .ok (entry, rest)) : Takes readAttribute source entry rest := by
  unfold readAttribute at read
  split at read
  next => cases read
  next named =>
    dsimp only at read
    split at read
    next tail opened =>
      split at read
      next => cases read
      next value after valued =>
        cases read
        obtain ⟨front, split, reads⟩ := takes_readValue valued
        obtain ⟨spaced, opens⟩ := span_cut _ split
        rw [spaced, ← List.cons_append] at opened
        obtain ⟨behind, equals⟩ := span_cut _ opened
        obtain ⟨whole, ends⟩ := span_cut _ behind
        refine ⟨_, whole, fun kept alike => ?_⟩
        obtain ⟨name, left⟩ := ends kept (alike.append _)
        rw [readAttribute, name, left, (equals kept (alike.append _)).2, List.cons_append,
          if_neg named]
        simp only [(opens kept (alike.append _)).2, reads kept alike]
    next bare =>
      cases read
      obtain ⟨behind, blanks⟩ := span_cut (p := isBlank) [] (List.nil_append _).symm
      obtain ⟨whole, ends⟩ := span_cut _ behind
      refine ⟨_, whole, fun kept alike => ?_⟩
      obtain ⟨name, left⟩ := ends kept (alike.append _)
      rw [readAttribute, name, left, (blanks kept alike).2, List.nil_append, if_neg named]
      dsimp only
      split
      next tail =>
        obtain ⟨more, begins⟩ := List.head?_eq_some_iff.mp (alike '=' rfl)
        exact (bare _ begins).elim
      next => rfl

/-- The attributes of a tag end with the tag, so they do not depend on what stands behind it. Where
the tag begins counts only if it does not end. -/
theorem takes_readAttributes {start source rest : List Char} {found : Attributes}
    {result : Attributes × Bool}
    (read : readAttributes start found source = .ok (result, rest)) :
    ∃ front, front ≠ [] ∧ source = front ++ rest ∧ ∀ kept other,
      readAttributes other found (front ++ kept) = .ok (result, kept) := by
  fun_induction readAttributes start found source with
  | case1 => cases read
  | case2 found source after next =>
      cases read
      obtain ⟨whole, ends⟩ := span_cut ['/', '>'] next
      refine ⟨_, by simp, whole, fun kept other => ?_⟩
      rw [readAttributes, (ends kept (.cons _ _ _)).2]
      rfl
  | case3 found source after next =>
      cases read
      obtain ⟨whole, ends⟩ := span_cut ['>'] next
      refine ⟨_, by simp, whole, fun kept other => ?_⟩
      rw [readAttributes, (ends kept (.cons _ _ _)).2]
      rfl
  | case4 => cases read
  | case5 found source entry after shorter one two three one induction =>
      obtain ⟨front, nonempty, split, reads⟩ := induction read
      obtain ⟨first, next, takes⟩ := takes_readAttribute one
      rw [split, ← List.append_assoc] at next
      obtain ⟨whole, ends⟩ := span_cut _ next
      obtain ⟨head, more, rfl⟩ := List.exists_cons_of_ne_nil nonempty
      refine ⟨_, by simp, whole, fun kept other => ?_⟩
      have again := takes (head :: more ++ kept) (split ▸ .cons _ _ _)
      have some : first ++ (head :: more ++ kept) ≠ [] := by simp
      obtain ⟨c, tail, begins⟩ := List.exists_cons_of_ne_nil some
      rw [begins] at again
      rw [readAttributes_of_read ((ends kept ?_).2.trans ?_) again]
      · exact reads kept other
      · rw [List.append_assoc, List.append_assoc]
        exact BeginsLike.append (.cons _ _ _) first
      · rw [List.append_assoc, begins]
  | case6 => cases read

/-- The characters are read as the token before the given rest. A text needs one that begins alike,
and what ends with a bracket is read alike before any rest. -/
def Token.Spelled (token : Token) (piece rest : List Char) : Prop :=
  ∀ kept, (∀ value, token = .text value → BeginsLike kept rest) →
    Token.read (piece ++ kept) = .ok (token, kept)

theorem Token.Spelled.of_isPrefix {token : Token} {piece rest kept : List Char}
    (spelled : token.Spelled piece rest) (part : kept <+: rest) :
    Token.read (piece ++ kept) = .ok (token, kept) :=
  spelled kept fun _ _ => .of_isPrefix part

theorem Token.exists_spelled_of_read {source rest : List Char} {token : Token}
    (read : Token.read source = .ok (token, rest)) :
    ∃ front, source = front ++ rest ∧ token.Spelled front rest := by
  unfold Token.read at read
  split at read
  next inside =>
    split at read
    next => cases read
    next value after found =>
      cases read
      refine ⟨'<' :: '!' :: '-' :: '-' :: (value ++ commentEnd), ?_, fun kept _ => ?_⟩
      · rw [append_of_splitAtFirst found]
        rfl
      · have closed := splitAtFirst_commentEnd kept (contains_before (List.cons_ne_nil _ _) found)
        rw [commentEnd] at closed ⊢
        simp only [List.cons_append, List.append_assoc, Token.read] at closed ⊢
        rw [closed]
  next inside =>
    split at read
    next after closed =>
      split at read
      next => cases read
      next named =>
        cases read
        obtain ⟨behind, blanks⟩ := span_cut ['>'] closed
        obtain ⟨whole, ends⟩ := span_cut _ behind
        refine ⟨'<' :: '/' :: _, congrArg (fun text => '<' :: '/' :: text) whole,
          fun kept _ => ?_⟩
        have alike : BeginsLike (['>'] ++ kept) (['>'] ++ rest) := .cons _ _ _
        obtain ⟨name, left⟩ := ends kept (by simpa using alike.append _)
        simp only [List.cons_append, Token.read]
        rw [name, left, (blanks kept alike).2]
        exact if_neg named
    next => cases read
  next inside _ _ =>
    split at read
    next letter =>
      split at read
      next => cases read
      next attributes selfClosing after tagged =>
        cases read
        obtain ⟨front, nonempty, split, reads⟩ := takes_readAttributes tagged
        obtain ⟨whole, ends⟩ := span_cut _ split
        obtain ⟨head, more, rfl⟩ := List.exists_cons_of_ne_nil nonempty
        refine ⟨'<' :: _, congrArg ('<' :: ·) whole, fun kept _ => ?_⟩
        obtain ⟨name, left⟩ := ends kept (.cons _ _ _)
        cases inside with
        | nil => contradiction
        | cons c others =>
            have letter : c.isAlpha = true := by simpa using letter
            rw [List.takeWhile_cons_of_pos (isNameChar_of_isAlpha letter)] at name left ⊢
            simp only [List.cons_append] at name left reads ⊢
            rw [read_of_isAlpha letter, name, left, reads kept]
    next => cases read
  next other =>
    cases read
    cases source with
    | nil =>
        refine ⟨[], rfl, fun kept text => ?_⟩
        cases kept with
        | nil => rfl
        | cons c tail => cases text _ rfl c rfl
    | cons c tail =>
        have plain : c ≠ '<' := by
          rintro rfl
          exact other tail rfl
        obtain ⟨whole, ends⟩ := span_cut (p := (· != '<')) [] (List.nil_append _).symm
        rw [List.append_nil] at whole ends
        refine ⟨_, whole, fun kept text => ?_⟩
        obtain ⟨taken, left⟩ := ends kept (text _ rfl)
        rw [List.takeWhile_cons_of_pos (p := (· != '<')) (bne_iff_ne.mpr plain)] at taken left ⊢
        simp only [List.cons_append] at taken left ⊢
        rw [read_of_ne plain, taken, left, List.nil_append]

/-! What is blamed begins inside the text. -/

theorem suffix_of_readValue {source : List Char} {blame : Blame}
    (read : readValue source = .error blame) : blame.found = source ∧ source ≠ [] := by
  unfold readValue at read
  split at read
  next => cases read
  next =>
    split at read
    next =>
      split at read
      next =>
        cases read
        exact ⟨rfl, List.cons_ne_nil _ _⟩
      next => cases read
    next => cases read

theorem suffix_of_readAttribute {source : List Char} {blame : Blame} (more : source ≠ [])
    (read : readAttribute source = .error blame) :
    blame.found <:+ source ∧ blame.found ≠ [] := by
  unfold readAttribute at read
  split at read
  next =>
    cases read
    exact ⟨List.suffix_refl _, more⟩
  next =>
    dsimp only at read
    split at read
    next rest opened =>
      split at read
      next blamed valued =>
        cases read
        obtain ⟨same, nonempty⟩ := suffix_of_readValue valued
        rw [same]
        refine ⟨?_, nonempty⟩
        have equals : '=' :: rest <:+ source := by
          rw [← opened]
          exact (List.dropWhile_suffix _).trans (List.dropWhile_suffix _)
        exact (List.dropWhile_suffix _).trans ((List.suffix_cons _ _).trans equals)
      next => cases read
    next => cases read

theorem suffix_of_readAttributes {start source : List Char} {found : Attributes} {blame : Blame}
    (more : start ≠ []) (behind : source <:+ start)
    (read : readAttributes start found source = .error blame) :
    blame.found <:+ start ∧ blame.found ≠ [] := by
  fun_induction readAttributes start found source with
  | case1 =>
      cases read
      exact ⟨List.suffix_refl _, more⟩
  | case2 => cases read
  | case3 => cases read
  | case4 found source blamed nonempty _ _ one =>
      cases read
      obtain ⟨part, blames⟩ := suffix_of_readAttribute nonempty one
      exact ⟨part.trans ((List.dropWhile_suffix _).trans behind), blames⟩
  | case5 found source entry after _ _ _ _ one induction =>
      obtain ⟨front, split, -⟩ := takes_readAttribute one
      have later : after <:+ source.dropWhile isBlank := ⟨front, split.symm⟩
      exact induction (later.trans ((List.dropWhile_suffix _).trans behind)) read
  | case6 found source entry after _ nonempty =>
      cases read
      exact ⟨(List.dropWhile_suffix _).trans behind, nonempty⟩

theorem Token.suffix_of_read {source : List Char} {blame : Blame}
    (read : Token.read source = .error blame) :
    blame.found <:+ source ∧ blame.found ≠ [] := by
  have whole : ∀ {fault : Fault} {rest : List Char}, source = '<' :: rest →
      (⟨fault, source⟩ : Blame).found <:+ source ∧ (⟨fault, source⟩ : Blame).found ≠ [] := by
    rintro _ _ rfl
    exact ⟨List.suffix_refl _, List.cons_ne_nil _ _⟩
  unfold Token.read at read
  split at read
  next =>
    split at read
    next =>
      cases read
      exact whole rfl
    next => cases read
  next =>
    split at read
    next =>
      split at read
      next =>
        cases read
        exact whole rfl
      next => cases read
    next =>
      cases read
      exact whole rfl
  next inside _ _ =>
    split at read
    next =>
      split at read
      next tagged =>
        cases read
        apply suffix_of_readAttributes (List.cons_ne_nil _ _) ?_ tagged
        exact (List.dropWhile_suffix _).trans (List.suffix_cons _ _)
      next => cases read
    next =>
      cases read
      exact whole rfl
  next => cases read

end ViewTemplates.Markup
