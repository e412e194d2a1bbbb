import ViewTemplates.Markup.Printer
import ViewTemplates.Proofs.Markup.Lexical

/-!
Printed tokens are read back. Each token of the strict form ends where it was meant to end, whatever
stands behind it; only a text needs a `<` there, or nothing.
-/

namespace ViewTemplates

/-- No value has a double quote in it. -/
def Attributes.Quotable (attributes : Attributes) : Prop :=
  ∀ entry ∈ attributes, '"' ∉ entry.2.toList

namespace Markup

open Text

/-- The text is read as these tokens, and then there is a rest. -/
inductive Reads : List Char → List Token → List Char → Prop where
  | nil (source : List Char) : Reads source [] source
  | cons {source middle rest : List Char} {token : Token} {tokens : List Token} :
      source ≠ [] → Token.read source = .ok (token, middle) → Reads middle tokens rest →
      Reads source (token :: tokens) rest

namespace Reads

theorem append {source middle rest : List Char} {tokens later : List Token}
    (first : Reads source tokens middle) (second : Reads middle later rest) :
    Reads source (tokens ++ later) rest := by
  induction first with
  | nil => exact second
  | cons more read _ induction => exact .cons more read (induction second)

theorem tokensFrom {source : List Char} {tokens : List Token} (reads : Reads source tokens [])
    (offset : Nat) : ∃ placed, Markup.tokensFrom offset source = .ok placed ∧
      placed.map (·.token) = tokens := by
  generalize whole : ([] : List Char) = rest at reads
  induction reads generalizing offset with
  | nil =>
      subst whole
      exact ⟨[], tokensFrom_nil offset, rfl⟩
  | @cons source middle rest token tokens more read _ induction =>
      obtain ⟨placed, run, same⟩ := induction (offset + (width source - width middle)) whole
      refine ⟨⟨token, offset⟩ :: placed, ?_, by rw [List.map_cons, same]⟩
      cases source with
      | nil => contradiction
      | cons c tail => rw [tokensFrom_of_read read, run]

end Reads

/-! Names and attributes. -/

theorem exists_of_isTagName {name : String} (named : isTagName name = true) :
    ∃ c rest, name.toList = c :: rest ∧ c.isAlpha = true ∧
      ∀ other ∈ name.toList, isNameChar other = true := by
  unfold isTagName at named
  split at named
  next => contradiction
  next c rest whole =>
    obtain ⟨letter, others⟩ := Bool.and_eq_true_iff.mp named
    refine ⟨c, rest, whole, letter, ?_⟩
    intro other member
    rw [whole] at member
    rcases List.mem_cons.mp member with rfl | later
    · exact isNameChar_of_isAlpha letter
    · exact List.all_eq_true.mp others other later

theorem exists_of_isAttributeName {name : String} (named : isAttributeName name = true) :
    ∃ c rest, name.toList = c :: rest ∧ ∀ other ∈ name.toList, isAttributeChar other = true := by
  unfold isAttributeName at named
  cases whole : name.toList with
  | nil => simp [whole] at named
  | cons c rest =>
      refine ⟨c, rest, rfl, ?_⟩
      simpa [whole] using named

theorem isBlank_of_isAttributeChar {c : Char} (plain : isAttributeChar c = true) :
    isBlank c = false := by
  simp only [isAttributeChar, Bool.and_eq_true, Bool.not_eq_true'] at plain
  simp [plain]

theorem printValue_of_notMem {value : List Char} (plain : '"' ∉ value) :
    printValue value = value := by
  induction value with
  | nil => rfl
  | cons c rest induction =>
      simp only [List.mem_cons, not_or] at plain
      simp [printValue, Ne.symm plain.1, induction plain.2]

theorem readValue_quoted {value : List Char} (plain : '"' ∉ value) (rest : List Char) :
    readValue ('"' :: (value ++ '"' :: rest)) = .ok (value, rest) := by
  obtain ⟨taken, dropped⟩ := takeWhile_run (ne_of_notMem plain) '"' rfl rest
  simp only [readValue, true_or, if_true, taken, dropped]

theorem readAttribute_quoted {name : String} (named : isAttributeName name = true)
    {value : List Char} (plain : '"' ∉ value) (rest : List Char) :
    readAttribute (name.toList ++ '=' :: '"' :: (value ++ '"' :: rest)) =
      .ok ((name, String.ofList value), rest) := by
  obtain ⟨c, others, whole, inside⟩ := exists_of_isAttributeName named
  obtain ⟨taken, dropped⟩ :=
    takeWhile_run inside '=' rfl ('"' :: (value ++ '"' :: rest))
  have equals : isBlank '=' = false := rfl
  have quote : isBlank '"' = false := rfl
  rw [readAttribute, taken, dropped, if_neg (by simp [whole])]
  simp [equals, quote, readValue_quoted plain]

theorem offer_of_distinct {found later : Attributes} {entry : String × String}
    (distinct : ((found ++ entry :: later).map Prod.fst).Nodup) :
    found.offer entry = found ++ [entry] := by
  apply if_neg
  intro earlier
  obtain ⟨other, member, same⟩ := List.any_eq_true.mp earlier
  rw [List.map_append, List.nodup_append] at distinct
  apply distinct.2.2 other.1 (List.mem_map_of_mem member) entry.1 (by simp)
  simpa using same

/-- The attributes of the strict form are read in their order. The induction carries what was read
before, which has none of the names still to come. -/
theorem readAttributes_printed (start : List Char) {found attributes : Attributes}
    (lexical : (found ++ attributes).Lexical) (quotable : attributes.Quotable)
    (rest : List Char) :
    readAttributes start found (printAttributes attributes ++ '>' :: rest) =
      .ok ((found ++ attributes, false), rest) := by
  induction attributes generalizing found with
  | nil =>
      have stops : isBlank '>' = false := rfl
      rw [readAttributes]
      simp [printAttributes, stops]
  | cons entry later induction =>
      obtain ⟨name, value⟩ := entry
      have named : isAttributeName name = true := lexical.names (name, value) (by simp)
      have plain : '"' ∉ value.toList := quotable (name, value) List.mem_cons_self
      obtain ⟨c, others, whole, inside⟩ := exists_of_isAttributeName named
      have first : isBlank c = false := isBlank_of_isAttributeChar (inside c (by simp [whole]))
      have read := readAttribute_quoted named plain (printAttributes later ++ '>' :: rest)
      rw [String.ofList_toList] at read
      have next : (printAttributes ((name, value) :: later) ++ '>' :: rest).dropWhile isBlank =
          name.toList ++ '=' :: '"' ::
            (value.toList ++ '"' :: (printAttributes later ++ '>' :: rest)) := by
        have blank : isBlank ' ' = true := rfl
        simp [printAttributes, printValue_of_notMem plain, blank, whole, first]
      rw [whole, List.cons_append] at next read
      rw [readAttributes_of_read next read, offer_of_distinct lexical.distinct, induction]
      · rw [List.append_assoc, List.singleton_append]
      · rwa [List.append_assoc, List.singleton_append]
      · intro other member
        exact quotable other (List.mem_cons_of_mem _ member)

/-! Tokens. -/

/-- The name of a start tag ends where its first attribute or the tag's end begins. -/
theorem exists_printAttributes_cons (attributes : Attributes) (rest : List Char) :
    ∃ stop tail, printAttributes attributes ++ '>' :: rest = stop :: tail ∧
      isNameChar stop = false := by
  cases attributes with
  | nil => exact ⟨'>', rest, rfl, by decide +kernel⟩
  | cons entry later =>
      exact ⟨' ', _, rfl, by decide +kernel⟩

/-- A letter behind `<` begins a start tag. -/
theorem read_of_isAlpha {c : Char} {tail : List Char} (letter : c.isAlpha = true) :
    Token.read ('<' :: c :: tail) =
      match readAttributes ('<' :: c :: tail) [] ((c :: tail).dropWhile isNameChar) with
      | .error blame => .error blame
      | .ok ((attributes, selfClosing), after) =>
          .ok (.startTag (String.ofList ((c :: tail).takeWhile isNameChar)) attributes selfClosing,
            after) := by
  unfold Token.read
  split
  next same =>
    cases same
    contradiction
  next same =>
    cases same
    contradiction
  next same =>
    cases same
    exact if_pos letter
  next other => exact (other _ rfl).elim

theorem read_startTag {name : String} {attributes : Attributes} (named : isTagName name = true)
    (lexical : attributes.Lexical) (quotable : attributes.Quotable) (rest : List Char) :
    Token.read ('<' :: name.toList ++ printAttributes attributes ++ '>' :: rest) =
      .ok (.startTag name attributes false, rest) := by
  obtain ⟨c, others, whole, letter, inside⟩ := exists_of_isTagName named
  obtain ⟨stop, tail, behind, stops⟩ := exists_printAttributes_cons attributes rest
  obtain ⟨taken, dropped⟩ := takeWhile_run inside stop stops tail
  have tagged := readAttributes_printed ('<' :: name.toList ++ stop :: tail)
    (show Attributes.Lexical ([] ++ attributes) from lexical) quotable rest
  rw [behind] at tagged
  have start : '<' :: name.toList ++ printAttributes attributes ++ '>' :: rest =
      '<' :: c :: (others ++ stop :: tail) := by
    rw [List.append_assoc, behind, whole]
    rfl
  have run : name.toList ++ stop :: tail = c :: (others ++ stop :: tail) := by
    rw [whole]
    rfl
  rw [List.cons_append, run] at tagged
  rw [run] at taken dropped
  rw [start, read_of_isAlpha letter, taken, dropped, tagged, String.ofList_toList]
  rfl

theorem read_endTag {name : String} (named : isTagName name = true) (rest : List Char) :
    Token.read ('<' :: '/' :: (name.toList ++ '>' :: rest)) = .ok (.endTag name, rest) := by
  obtain ⟨c, others, whole, letter, inside⟩ := exists_of_isTagName named
  obtain ⟨taken, dropped⟩ := takeWhile_run inside '>' (by decide +kernel) rest
  have stops : isBlank '>' = false := rfl
  have nonempty : name.toList ≠ [] := by simp [whole]
  simp only [Token.read, taken, dropped, List.dropWhile_cons, stops, if_neg nonempty,
    String.ofList_toList, Bool.false_eq_true, if_false]

theorem read_comment {value : String} (within : contains commentEnd value.toList = false)
    (rest : List Char) :
    Token.read ('<' :: '!' :: '-' :: '-' :: (value.toList ++ (commentEnd ++ rest))) =
      .ok (.comment value, rest) := by
  have found := splitAtFirst_commentEnd rest within
  rw [commentEnd] at found ⊢
  simp only [Token.read, found, String.ofList_toList]

/-- What is no `<` begins a text. -/
theorem read_of_ne {c : Char} {tail : List Char} (plain : c ≠ '<') :
    Token.read (c :: tail) =
      .ok (.text (String.ofList ((c :: tail).takeWhile (· != '<'))),
        (c :: tail).dropWhile (· != '<')) := by
  unfold Token.read
  split
  next same => exact (plain (List.cons.inj same).1).elim
  next same => exact (plain (List.cons.inj same).1).elim
  next same => exact (plain (List.cons.inj same).1).elim
  next => rfl

/-- Nothing, or the beginning of a token that is no text. -/
def EndsText : List Char → Prop
  | [] => True
  | c :: _ => c = '<'

theorem read_text {value : String} (nonempty : value.toList ≠ []) (plain : '<' ∉ value.toList)
    {rest : List Char} (stop : EndsText rest) :
    Token.read (value.toList ++ rest) = .ok (.text value, rest) := by
  have stops : ∀ c ∈ rest.head?, (c != '<') = false := by
    cases rest with
    | nil => exact nofun
    | cons c tail =>
        obtain rfl : c = '<' := stop
        rintro _ ⟨⟩
        rfl
  obtain ⟨taken, dropped⟩ := span_iff.mpr ⟨rfl, ne_of_notMem plain, stops⟩
  cases whole : value.toList with
  | nil => contradiction
  | cons c others =>
      have first : c ≠ '<' := by
        rintro rfl
        exact plain (by simp [whole])
      have read := @read_of_ne c (others ++ rest) first
      rwa [← List.cons_append, ← whole, taken, dropped, String.ofList_toList, whole] at read

end Markup

end ViewTemplates
