import ViewTemplates.Proofs.Markup.Nesting
import ViewTemplates.Proofs.Text.Search

/-!
What the tokens of a text can hold: which names elements and attributes have, and that a text has no
`<` in it and a comment no end of a comment.
-/

namespace ViewTemplates

open Text

namespace Markup

/-- A letter and further name characters. -/
def isTagName (name : String) : Bool :=
  match name.toList with
  | [] => false
  | c :: rest => c.isAlpha && rest.all isNameChar

def isAttributeName (name : String) : Bool :=
  !name.toList.isEmpty && name.toList.all isAttributeChar

theorem isNameChar_of_isAlpha {c : Char} (letter : c.isAlpha = true) : isNameChar c = true := by
  have plain : c.isAlphanum = true := by simp [Char.isAlphanum, letter]
  simp [isNameChar, isAlphanumeric_of_isAlphanum c plain]

end Markup

/-- Names as they stand in start tags, and each of them once. -/
structure Attributes.Lexical (attributes : Attributes) : Prop where
  names : ∀ entry ∈ attributes, Markup.isAttributeName entry.1 = true
  distinct : (attributes.map Prod.fst).Nodup

instance (attributes : Attributes) : Decidable attributes.Lexical :=
  decidable_of_iff ((∀ entry ∈ attributes, Markup.isAttributeName entry.1 = true) ∧
      (attributes.map Prod.fst).Nodup)
    ⟨fun both => ⟨both.1, both.2⟩, fun lexical => ⟨lexical.names, lexical.distinct⟩⟩

/-- A node that a token can stand for. -/
def NodeKind.Lexical : NodeKind → Prop
  | fragment => False
  | element name attributes => Markup.isTagName name = true ∧ attributes.Lexical
  | text value => value.toList ≠ [] ∧ '<' ∉ value.toList
  | comment value => contains commentEnd value.toList = false

instance : DecidablePred NodeKind.Lexical
  | .fragment => inferInstanceAs (Decidable False)
  | .element name attributes =>
      inferInstanceAs (Decidable (Markup.isTagName name = true ∧ attributes.Lexical))
  | .text value => inferInstanceAs (Decidable (value.toList ≠ [] ∧ '<' ∉ value.toList))
  | .comment value => inferInstanceAs (Decidable (contains commentEnd value.toList = false))

namespace Attributes.Lexical

theorem nil : Attributes.Lexical [] := ⟨nofun, .nil⟩

theorem offer {attributes : Attributes} (lexical : attributes.Lexical) {entry : String × String}
    (named : Markup.isAttributeName entry.1 = true) : (attributes.offer entry).Lexical := by
  unfold Attributes.offer
  split
  next => exact lexical
  next new =>
    constructor
    case names =>
      intro other member
      rcases List.mem_append.mp member with earlier | last
      · exact lexical.names other earlier
      · rw [List.mem_singleton.mp last]
        exact named
    case distinct =>
      rw [List.map_append, List.nodup_append]
      refine ⟨lexical.distinct, by simp, ?_⟩
      intro name earlier other last same
      obtain ⟨found, member, rfl⟩ := List.mem_map.mp earlier
      apply new
      rw [List.any_eq_true]
      refine ⟨found, member, ?_⟩
      simpa [same] using last

end Attributes.Lexical

namespace Markup

theorem isAttributeName_of_read {source after : List Char} {entry : String × String}
    (read : readAttribute source = .ok (entry, after)) : isAttributeName entry.1 = true := by
  have named (taken : source.takeWhile isAttributeChar ≠ []) :
      isAttributeName (String.ofList (source.takeWhile isAttributeChar)) = true := by
    rw [isAttributeName, String.toList_ofList, List.all_takeWhile]
    simpa using taken
  unfold readAttribute at read
  split at read
  next => contradiction
  next taken =>
    dsimp only at read
    split at read
    next =>
      split at read
      next => contradiction
      next =>
        cases read
        exact named taken
    next =>
      cases read
      exact named taken

theorem lexical_of_readAttributes {start source after : List Char} {found : Attributes}
    {result : Attributes × Bool} (lexical : found.Lexical)
    (read : readAttributes start found source = .ok (result, after)) : result.1.Lexical := by
  fun_induction readAttributes start found source with
  | case1 => contradiction
  | case2 =>
      cases read
      exact lexical
  | case3 =>
      cases read
      exact lexical
  | case4 => contradiction
  | case5 found source entry inner shorter _ _ _ one induction =>
      exact induction (lexical.offer (isAttributeName_of_read one)) read
  | case6 => contradiction

/-- Whatever token is read, the node that it adds is lexical. -/
theorem Token.lexical_of_read {c : Char} {tail rest : List Char} {token : Token}
    (read : Token.read (c :: tail) = .ok (token, rest)) {kind : NodeKind}
    (made : token.kind? = some kind) : kind.Lexical := by
  generalize whole : c :: tail = source at read
  unfold Token.read at read
  split at read
  next =>
    split at read
    next => contradiction
    next value after found =>
      cases read
      cases made
      rw [NodeKind.Lexical, String.toList_ofList]
      exact contains_before (by simp [commentEnd]) found
  next =>
    split at read
    next =>
      split at read
      next => contradiction
      next =>
        cases read
        contradiction
    next => contradiction
  next inside _ _ =>
    split at read
    next letter =>
      split at read
      next => contradiction
      next attributes selfClosing after tagged =>
        cases read
        cases made
        refine ⟨?_, lexical_of_readAttributes .nil tagged⟩
        cases inside with
        | nil => contradiction
        | cons first others =>
            have first : first.isAlpha = true := by simpa using letter
            simp [isTagName, isNameChar_of_isAlpha first, first]
    next => contradiction
  next other =>
    cases read
    cases made
    have plain : c ≠ '<' := by
      rintro rfl
      exact other tail whole.symm
    have taken := List.all_takeWhile (p := (· != '<')) (l := source)
    rw [List.all_eq_true] at taken
    refine ⟨?_, fun member => ?_⟩
    · simp [← whole, plain]
    · rw [String.toList_ofList] at member
      simpa using taken _ member

theorem lexical_of_tokensFrom {offset : Nat} {source : List Char} {tokens : List Placed}
    (read : tokensFrom offset source = .ok tokens) :
    ∀ placed ∈ tokens, ∀ kind, placed.token.kind? = some kind → kind.Lexical := by
  fun_induction tokensFrom offset source generalizing tokens with
  | case1 =>
      cases read
      exact nofun
  | case2 => contradiction
  | case3 => contradiction
  | case4 offset c tail token rest one _ later behind induction =>
      cases read
      intro placed member kind made
      rcases List.mem_cons.mp member with rfl | other
      · exact Token.lexical_of_read one made
      · exact induction behind placed other kind made
  | case5 =>
      cases read
      exact nofun

/-- The nodes of a markup text are lexical. -/
theorem lexical_of_parse {source : String} {forest : Forest NodeKind} {events : List Event}
    (parsed : parse source = .ok (forest, events)) : ∀ kind ∈ forest.preorder, kind.Lexical := by
  rw [parse, tokenize] at parsed
  cases read : tokensFrom 0 source.toList with
  | error failure => simp [read] at parsed
  | ok tokens =>
      simp only [read] at parsed
      have whole : (nest tokens).1 = forest := congrArg Prod.fst (Except.ok.inj parsed)
      intro kind member
      rw [← whole, preorder_nest] at member
      obtain ⟨placed, among, made⟩ := List.mem_filterMap.mp member
      exact lexical_of_tokensFrom read placed among kind made

end Markup

end ViewTemplates
