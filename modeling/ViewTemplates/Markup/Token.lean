import ViewTemplates.Node
import ViewTemplates.Text.Blank
import ViewTemplates.Text.Letter
import ViewTemplates.Text.Search

/-!
Markup tokens. `Token.read` takes one token off the front of a text and returns a shorter rest;
what it cannot read it blames on a suffix of the text.
-/

namespace ViewTemplates.Markup

open Text

inductive Token where
  | text (value : String)
  | comment (value : String)
  | startTag (name : String) (attributes : Attributes) (selfClosing : Bool)
  | endTag (name : String)
  deriving Repr, DecidableEq

inductive Fault where
  | unclosedComment
  | unclosedEndTag
  | unclosedStartTag
  | unclosedValue
  | strayLess
  | strayInTag
  deriving Repr, DecidableEq

def Fault.message : Fault → String
  | unclosedComment => "Unterminated comment"
  | unclosedEndTag => "Unterminated end tag"
  | unclosedStartTag => "Unterminated start tag"
  | unclosedValue => "Unterminated attribute value"
  | strayLess => "Unexpected character after \"<\""
  | strayInTag => "Unexpected character in start tag"

/-- A fault with the part of the text that begins where it is blamed. -/
structure Blame where
  fault : Fault
  found : List Char

def isNameChar (c : Char) : Bool :=
  isAlphanumeric c || c == '-' || c == '_' || c == ':' || c == '.'

def isAttributeChar (c : Char) : Bool :=
  !isBlank c && c != '=' && c != '>' && c != '/' && c != '"' && c != '\'' && c != '<'

def isBareChar (c : Char) : Bool := !isBlank c && c != '>'

/-- An attribute value: what the quotes enclose, or the run up to a blank or the tag's end. -/
def readValue (source : List Char) : Except Blame (List Char × List Char) :=
  match source with
  | [] => .ok ([], [])
  | quote :: rest =>
      if quote = '"' ∨ quote = '\'' then
        match rest.dropWhile (· != quote) with
        | [] => .error ⟨.unclosedValue, source⟩
        | _ :: after => .ok (rest.takeWhile (· != quote), after)
      else .ok (source.takeWhile isBareChar, source.dropWhile isBareChar)

/-- An attribute: a name, and a value if an equals sign follows. -/
def readAttribute (source : List Char) : Except Blame ((String × String) × List Char) :=
  if source.takeWhile isAttributeChar = [] then .error ⟨.strayInTag, source⟩
  else
    let name := String.ofList (source.takeWhile isAttributeChar)
    match (source.dropWhile isAttributeChar).dropWhile isBlank with
    | '=' :: rest =>
        match readValue (rest.dropWhile isBlank) with
        | .error blame => .error blame
        | .ok (value, after) => .ok ((name, String.ofList value), after)
    | rest => .ok ((name, ""), rest)

theorem length_dropWhile_le (p : α → Bool) (list : List α) :
    (list.dropWhile p).length ≤ list.length :=
  (List.dropWhile_suffix p).length_le

theorem readValue_length {source value after : List Char}
    (read : readValue source = .ok (value, after)) : after.length ≤ source.length := by
  unfold readValue at read
  split at read
  next =>
    obtain ⟨-, rfl⟩ := Prod.mk.injEq .. ▸ Except.ok.injEq .. ▸ read
    exact Nat.le_refl _
  next quote rest =>
    split at read
    next =>
      split at read
      next => cases read
      next head tail dropped =>
        obtain ⟨-, rfl⟩ := Prod.mk.injEq .. ▸ Except.ok.injEq .. ▸ read
        have shorter := length_dropWhile_le (· != quote) rest
        rw [dropped] at shorter
        simp only [List.length_cons] at shorter ⊢
        omega
    next =>
      obtain ⟨-, rfl⟩ := Prod.mk.injEq .. ▸ Except.ok.injEq .. ▸ read
      exact length_dropWhile_le ..

theorem length_dropWhile_lt {p : α → Bool} {list : List α} (taken : list.takeWhile p ≠ []) :
    (list.dropWhile p).length < list.length := by
  have whole := congrArg List.length (List.takeWhile_append_dropWhile (p := p) (l := list))
  have := List.length_pos_iff.mpr taken
  simp only [List.length_append] at whole
  omega

/-- An attribute takes at least one character. -/
theorem readAttribute_length {source after : List Char} {entry : String × String}
    (read : readAttribute source = .ok (entry, after)) : after.length < source.length := by
  unfold readAttribute at read
  split at read
  next => cases read
  next named =>
    have name := length_dropWhile_lt named
    have blank := length_dropWhile_le isBlank (source.dropWhile isAttributeChar)
    dsimp only at read
    split at read
    next rest opened =>
      split at read
      next => cases read
      next value tail valued =>
        obtain ⟨-, rfl⟩ := Prod.mk.injEq .. ▸ Except.ok.injEq .. ▸ read
        have closed := readValue_length valued
        have spaced := length_dropWhile_le isBlank rest
        rw [opened] at blank
        simp only [List.length_cons] at blank
        omega
    next =>
      obtain ⟨-, rfl⟩ := Prod.mk.injEq .. ▸ Except.ok.injEq .. ▸ read
      omega

/-- The attributes of a start tag up to its end, and whether it closes itself. Of two attributes
with one name the first counts. A tag that does not end is blamed on its beginning. Every attribute
leaves a shorter text, so the bound that ends the recursion always holds. -/
def readAttributes (start : List Char) (found : Attributes) (source : List Char) :
    Except Blame ((Attributes × Bool) × List Char) :=
  match source.dropWhile isBlank with
  | [] => .error ⟨.unclosedStartTag, start⟩
  | '/' :: '>' :: rest => .ok ((found, true), rest)
  | '>' :: rest => .ok ((found, false), rest)
  | next =>
      match readAttribute next with
      | .error blame => .error blame
      | .ok (entry, after) =>
          if after.length < source.length then readAttributes start (found.offer entry) after
          else .error ⟨.strayInTag, next⟩
termination_by source.length
decreasing_by assumption

theorem readAttributes_length {start source after : List Char} {found : Attributes}
    {result : Attributes × Bool} (read : readAttributes start found source = .ok (result, after)) :
    after.length < source.length := by
  fun_induction readAttributes start found source with
  | case1 => cases read
  | case2 found source rest next =>
      obtain ⟨-, rfl⟩ := Prod.mk.injEq .. ▸ Except.ok.injEq .. ▸ read
      have blank := length_dropWhile_le isBlank source
      rw [next] at blank
      simp only [List.length_cons] at blank
      omega
  | case3 found source rest next =>
      obtain ⟨-, rfl⟩ := Prod.mk.injEq .. ▸ Except.ok.injEq .. ▸ read
      have blank := length_dropWhile_le isBlank source
      rw [next] at blank
      simp only [List.length_cons] at blank
      omega
  | case4 => cases read
  | case5 found source entry inner shorter _ _ _ _ induction =>
      exact Nat.lt_trans (induction read) shorter
  | case6 => cases read

/-- An attribute that is read is added, and reading goes on behind it. -/
theorem readAttributes_of_read {start source after : List Char} {found : Attributes} {c : Char}
    {rest : List Char} {entry : String × String} (next : source.dropWhile isBlank = c :: rest)
    (read : readAttribute (c :: rest) = .ok (entry, after)) :
    readAttributes start found source = readAttributes start (found.offer entry) after := by
  have shorter := readAttribute_length read
  have blank := length_dropWhile_le isBlank source
  rw [next] at blank
  rw [readAttributes, next]
  split
  next equal => cases equal
  next equal =>
    obtain ⟨rfl, rfl⟩ := List.cons.injEq .. ▸ equal
    simp [readAttribute, isAttributeChar] at read
  next equal =>
    obtain ⟨rfl, rfl⟩ := List.cons.injEq .. ▸ equal
    simp [readAttribute, isAttributeChar] at read
  next => simp only [read, if_pos (Nat.lt_of_lt_of_le shorter blank)]

/-- The token at the front of the text. A text runs up to the next `<`, and a `<` begins a
comment, an end tag or a start tag. -/
def Token.read (source : List Char) : Except Blame (Token × List Char) :=
  match source with
  | '<' :: '!' :: '-' :: '-' :: rest =>
      match splitAtFirst ['-', '-', '>'] rest with
      | none => .error ⟨.unclosedComment, source⟩
      | some (value, after) => .ok (.comment (String.ofList value), after)
  | '<' :: '/' :: rest =>
      match (rest.dropWhile isNameChar).dropWhile isBlank with
      | '>' :: after =>
          if rest.takeWhile isNameChar = [] then .error ⟨.unclosedEndTag, source⟩
          else .ok (.endTag (String.ofList (rest.takeWhile isNameChar)), after)
      | _ => .error ⟨.unclosedEndTag, source⟩
  | '<' :: rest =>
      if (rest.head?.map Char.isAlpha).getD false then
        match readAttributes source [] (rest.dropWhile isNameChar) with
        | .error blame => .error blame
        | .ok ((attributes, selfClosing), after) =>
            .ok (.startTag (String.ofList (rest.takeWhile isNameChar)) attributes selfClosing,
              after)
      else .error ⟨.strayLess, source⟩
  | _ =>
      .ok (.text (String.ofList (source.takeWhile (· != '<'))), source.dropWhile (· != '<'))

/-- A token takes at least one character of a text that has one. -/
theorem Token.read_length {c : Char} {tail after : List Char} {token : Token}
    (read : Token.read (c :: tail) = .ok (token, after)) : after.length < (c :: tail).length := by
  generalize whole : c :: tail = source at read ⊢
  unfold Token.read at read
  split at read
  next rest =>
    split at read
    next => cases read
    next value tail found =>
      obtain ⟨-, rfl⟩ := Prod.mk.injEq .. ▸ Except.ok.injEq .. ▸ read
      have parts := congrArg List.length (append_of_splitAtFirst found)
      simp only [List.length_append, List.length_cons] at parts ⊢
      omega
  next rest =>
    split at read
    next tail closed =>
      split at read
      next => cases read
      next =>
        obtain ⟨-, rfl⟩ := Prod.mk.injEq .. ▸ Except.ok.injEq .. ▸ read
        have name := length_dropWhile_le isNameChar rest
        have blank := length_dropWhile_le isBlank (rest.dropWhile isNameChar)
        rw [closed] at blank
        simp only [List.length_cons] at blank ⊢
        omega
    next => cases read
  next rest _ _ =>
    split at read
    next =>
      split at read
      next => cases read
      next attributes selfClosing tail tagged =>
        obtain ⟨-, rfl⟩ := Prod.mk.injEq .. ▸ Except.ok.injEq .. ▸ read
        have inner := readAttributes_length tagged
        have name := length_dropWhile_le isNameChar rest
        simp only [List.length_cons]
        omega
    next => cases read
  next other =>
    obtain ⟨-, rfl⟩ := Prod.mk.injEq .. ▸ Except.ok.injEq .. ▸ read
    apply length_dropWhile_lt
    have plain : c ≠ '<' := by
      rintro rfl
      exact other tail whole.symm
    simp [← whole, plain]

end ViewTemplates.Markup
