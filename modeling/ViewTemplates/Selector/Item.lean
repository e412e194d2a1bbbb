import ViewTemplates.Text.Blank
import ViewTemplates.Text.Letter

/-!
The items of which a selector text is made. `Item.scan` cuts a text into items from the left, as far
as it goes.
-/

namespace ViewTemplates.Selector

open Text

inductive Item where
  | element (name : String)
  | hasClass (name : String)
  | hasId (value : String)
  | attribute (name value : String)
  | openNot
  | closeNot
  | comma
  deriving Repr, DecidableEq

def isNameChar (c : Char) : Bool := c == '-' || isWordChar c

def isAttributeChar (c : Char) : Bool :=
  c == '-' || c == '.' || c == '*' || c == '\\' || c == '$' || isWordChar c

/-- The longest run of characters of the class, if there is one. -/
def readRun (p : Char → Bool) (source : List Char) : Option (String × List Char) :=
  if source.takeWhile p = [] then none
  else some (String.ofList (source.takeWhile p), source.dropWhile p)

/-- A value in quotes with a bracket directly behind it. -/
def readQuoted (quote : Char) (source : List Char) : Option (String × List Char) :=
  match source with
  | [] => none
  | c :: rest =>
      if c = quote then
        match rest.dropWhile (· != quote) with
        | _ :: ']' :: after => some (String.ofList (rest.takeWhile (· != quote)), after)
        | _ => none
      else none

/-- A value without quotes: all up to the bracket. -/
def readBare (source : List Char) : Option (String × List Char) :=
  match source.dropWhile (· != ']') with
  | _ :: after => some (String.ofList (source.takeWhile (· != ']')), after)
  | [] => none

def readValue (source : List Char) : Option (String × List Char) :=
  (readQuoted '"' source).or ((readQuoted '\'' source).or (readBare source))

/-- What follows an opening bracket. -/
def readAttribute (source : List Char) : Option (Item × List Char) :=
  match readRun isAttributeChar source with
  | none => none
  | some (name, ']' :: after) => some (.attribute name "", after)
  | some (name, '=' :: rest) =>
      (readValue rest).map fun (value, after) => (.attribute name value, after)
  | some _ => none

def Item.read (source : List Char) : Option (Item × List Char) :=
  match source with
  | ':' :: 'n' :: 'o' :: 't' :: '(' :: rest => some (.openNot, rest)
  | ')' :: rest => some (.closeNot, rest)
  | '.' :: rest => (readRun isNameChar rest).map fun (name, after) => (.hasClass name, after)
  | '#' :: rest => (readRun isNameChar rest).map fun (value, after) => (.hasId value, after)
  | '[' :: rest => readAttribute rest
  | _ =>
      match readRun isNameChar source with
      | some (name, after) => some (.element name, after)
      | none =>
          match source.dropWhile isBlank with
          | ',' :: rest => some (.comma, rest.dropWhile isBlank)
          | _ => none

theorem readRun_length {p : Char → Bool} {source after : List Char} {name : String}
    (read : readRun p source = some (name, after)) : after.length < source.length := by
  unfold readRun at read
  split at read
  next => simp at read
  next taken =>
    obtain ⟨-, rfl⟩ := Prod.mk.injEq .. ▸ Option.some.injEq .. ▸ read
    have whole := congrArg List.length (List.takeWhile_append_dropWhile (p := p) (l := source))
    have := List.length_pos_iff.mpr taken
    simp only [List.length_append] at whole
    omega

theorem readQuoted_length {quote : Char} {source after : List Char} {value : String}
    (read : readQuoted quote source = some (value, after)) : after.length < source.length := by
  unfold readQuoted at read
  split at read
  next => simp at read
  next c rest =>
    split at read
    next =>
      split at read
      next head tail dropped =>
        obtain ⟨-, rfl⟩ := Prod.mk.injEq .. ▸ Option.some.injEq .. ▸ read
        have shorter := (List.dropWhile_suffix (l := rest) (· != quote)).length_le
        rw [dropped] at shorter
        simp only [List.length_cons] at shorter ⊢
        omega
      next => simp at read
    next => simp at read

theorem readBare_length {source after : List Char} {value : String}
    (read : readBare source = some (value, after)) : after.length < source.length := by
  unfold readBare at read
  split at read
  next head tail dropped =>
    obtain ⟨-, rfl⟩ := Prod.mk.injEq .. ▸ Option.some.injEq .. ▸ read
    have shorter := (List.dropWhile_suffix (l := source) (· != ']')).length_le
    rw [dropped] at shorter
    simp only [List.length_cons] at shorter
    omega
  next => simp at read

theorem readValue_length {source after : List Char} {value : String}
    (read : readValue source = some (value, after)) : after.length < source.length := by
  simp only [readValue, Option.or_eq_some_iff] at read
  rcases read with read | ⟨-, read | ⟨-, read⟩⟩
  · exact readQuoted_length read
  · exact readQuoted_length read
  · exact readBare_length read

theorem readAttribute_length {source after : List Char} {item : Item}
    (read : readAttribute source = some (item, after)) : after.length < source.length := by
  unfold readAttribute at read
  split at read
  next => simp at read
  next name tail named =>
    obtain ⟨-, rfl⟩ := Prod.mk.injEq .. ▸ Option.some.injEq .. ▸ read
    have taken := readRun_length named
    simp only [List.length_cons] at taken
    omega
  next name rest named =>
    obtain ⟨⟨value, tail⟩, valued, pair⟩ := Option.map_eq_some_iff.mp read
    obtain ⟨-, rfl⟩ := Prod.mk.injEq .. ▸ pair
    have taken := readRun_length named
    have closed := readValue_length valued
    simp only [List.length_cons] at taken
    omega
  next => simp at read

/-- An item takes at least one character. -/
theorem Item.read_length {source after : List Char} {item : Item}
    (read : Item.read source = some (item, after)) : after.length < source.length := by
  unfold Item.read at read
  split at read
  next rest =>
    obtain ⟨-, rfl⟩ := Prod.mk.injEq .. ▸ Option.some.injEq .. ▸ read
    simp only [List.length_cons]
    omega
  next rest =>
    obtain ⟨-, rfl⟩ := Prod.mk.injEq .. ▸ Option.some.injEq .. ▸ read
    simp only [List.length_cons]
    omega
  next rest =>
    obtain ⟨⟨name, tail⟩, named, pair⟩ := Option.map_eq_some_iff.mp read
    obtain ⟨-, rfl⟩ := Prod.mk.injEq .. ▸ pair
    exact Nat.lt_succ_of_lt (readRun_length named)
  next rest =>
    obtain ⟨⟨name, tail⟩, named, pair⟩ := Option.map_eq_some_iff.mp read
    obtain ⟨-, rfl⟩ := Prod.mk.injEq .. ▸ pair
    exact Nat.lt_succ_of_lt (readRun_length named)
  next rest => exact Nat.lt_succ_of_lt (readAttribute_length read)
  next =>
    split at read
    next name tail named =>
      obtain ⟨-, rfl⟩ := Prod.mk.injEq .. ▸ Option.some.injEq .. ▸ read
      exact readRun_length named
    next =>
      split at read
      next rest dropped =>
        obtain ⟨-, rfl⟩ := Prod.mk.injEq .. ▸ Option.some.injEq .. ▸ read
        have shorter := (List.dropWhile_suffix (l := source) isBlank).length_le
        have inner := (List.dropWhile_suffix (l := rest) isBlank).length_le
        rw [dropped] at shorter
        simp only [List.length_cons] at shorter
        omega
      next => cases read

/-- The items from the left, and the text from the first place on that begins none. Every item
leaves a shorter text, so the bound that ends the recursion always holds. -/
def Item.scan (source : List Char) : List Item × List Char :=
  match Item.read source with
  | none => ([], source)
  | some (item, rest) =>
      if rest.length < source.length then
        let (items, left) := Item.scan rest
        (item :: items, left)
      else ([], source)
termination_by source.length
decreasing_by assumption

theorem Item.scan_of_none {source : List Char} (read : Item.read source = none) :
    Item.scan source = ([], source) := by
  rw [Item.scan, read]

theorem Item.scan_of_read {source rest : List Char} {item : Item}
    (read : Item.read source = some (item, rest)) :
    Item.scan source = (item :: (Item.scan rest).1, (Item.scan rest).2) := by
  rw [Item.scan, read]
  simp only [if_pos (Item.read_length read)]

/-- The text up to the next place that begins an item. -/
def Item.gap : List Char → List Char
  | [] => []
  | c :: rest => if (Item.read (c :: rest)).isSome then [] else c :: Item.gap rest

end ViewTemplates.Selector
