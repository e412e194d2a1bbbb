import ViewTemplates.Proofs.Text.CodeSet
import ViewTemplates.Proofs.Text.Search
import ViewTemplates.Selector.Item

/-!
The items of a selector text as a grammar. `Item.Begins` says which item stands at the left end of
a text and what is left behind it, without reference to how a reader finds it; `Tiled` says that a
text is a sequence of items and nothing else. The reader and the scan follow this grammar.
-/

namespace ViewTemplates

namespace Selector

open Text

theorem isNameChar_of_isBlank {c : Char} (blank : isBlank c = true) : isNameChar c = false := by
  rw [isNameChar, isWordChar_of_isBlank blank, Bool.or_false, beq_eq_false_iff_ne]
  rintro rfl
  exact absurd blank (by decide)

/-! The pieces of a text. -/

/-- A run of characters of the class, as long as it can be, and what is left behind it. -/
structure Run (p : Char → Bool) (source : List Char) (name : String) (rest : List Char) :
    Prop where
  text : source = name.toList ++ rest
  nonempty : name ≠ ""
  members : ∀ c ∈ name.toList, p c = true
  maximal : ∀ c ∈ rest.head?, p c = false

/-- A value between two quotes and a bracket behind them. -/
structure Quoted (quote : Char) (source : List Char) (value : String) (rest : List Char) :
    Prop where
  text : source = quote :: (value.toList ++ quote :: ']' :: rest)
  free : quote ∉ value.toList

/-- A value that goes up to the next bracket. -/
structure Bare (source : List Char) (value : String) (rest : List Char) : Prop where
  text : source = value.toList ++ ']' :: rest
  free : ']' ∉ value.toList

def Fits (quote : Char) (source : List Char) : Prop := ∃ value rest, Quoted quote source value rest

/-- A value and the bracket behind it. Double quotes go before single ones, and a value is bare
where neither fits. -/
inductive Valued (source : List Char) (value : String) (rest : List Char) : Prop where
  | double (quoted : Quoted '"' source value rest)
  | single (first : ¬Fits '"' source) (quoted : Quoted '\'' source value rest)
  | bare (first : ¬Fits '"' source) (second : ¬Fits '\'' source) (plain : Bare source value rest)

/-- The text begins with the item, and the rest is what is left behind it. -/
inductive Item.Begins : List Char → Item → List Char → Prop where
  | openNot (rest : List Char) : Begins (':' :: 'n' :: 'o' :: 't' :: '(' :: rest) .openNot rest
  | closeNot (rest : List Char) : Begins (')' :: rest) .closeNot rest
  | element {source rest : List Char} {name : String} (run : Run isNameChar source name rest) :
      Begins source (.element name) rest
  | hasClass {source rest : List Char} {name : String} (run : Run isNameChar source name rest) :
      Begins ('.' :: source) (.hasClass name) rest
  | hasId {source rest : List Char} {value : String} (run : Run isNameChar source value rest) :
      Begins ('#' :: source) (.hasId value) rest
  | named {source rest : List Char} {name : String}
      (run : Run isAttributeChar source name (']' :: rest)) :
      Begins ('[' :: source) (.attribute name "") rest
  | valued {source text rest : List Char} {name value : String}
      (run : Run isAttributeChar source name ('=' :: text)) (valued : Valued text value rest) :
      Begins ('[' :: source) (.attribute name value) rest
  | comma {before after rest : List Char} (blankBefore : ∀ c ∈ before, isBlank c = true)
      (blankAfter : ∀ c ∈ after, isBlank c = true) (maximal : ∀ c ∈ rest.head?, isBlank c = false) :
      Begins (before ++ ',' :: (after ++ rest)) .comma rest

/-- The text is the sequence of the items, each taken from the left end of what is left. -/
inductive Tiled : List Char → List Item → Prop where
  | nil : Tiled [] []
  | cons {source rest : List Char} {item : Item} {items : List Item}
      (begins : Item.Begins source item rest) (tiled : Tiled rest items) :
      Tiled source (item :: items)

/-! The readers. -/

theorem readRun_eq_some {p : Char → Bool} {source rest : List Char} {name : String} :
    readRun p source = some (name, rest) ↔ Run p source name rest := by
  have spans : source.takeWhile p = name.toList ∧ source.dropWhile p = rest ↔ _ := span_iff
  rw [readRun]
  split
  next nothing =>
    refine ⟨nofun, fun run => absurd (spans.mpr ⟨run.text, run.members, run.maximal⟩).1 ?_⟩
    rw [nothing]
    exact fun taken => run.nonempty (String.toList_eq_nil_iff.mp taken.symm)
  next something =>
    rw [Option.some.injEq, Prod.mk.injEq, ← String.toList_inj, String.toList_ofList, spans]
    constructor
    · rintro ⟨text, members, maximal⟩
      refine ⟨text, ?_, members, maximal⟩
      rintro rfl
      exact something (spans.mpr ⟨text, members, maximal⟩).1
    · rintro ⟨text, -, members, maximal⟩
      exact ⟨text, members, maximal⟩

theorem readQuoted_eq_some {quote : Char} {source rest : List Char} {value : String} :
    readQuoted quote source = some (value, rest) ↔ Quoted quote source value rest := by
  constructor
  · intro read
    unfold readQuoted at read
    split at read
    next => cases read
    next c text =>
      split at read
      next same =>
        subst same
        split at read
        next closing after dropped =>
          obtain ⟨rfl, rfl⟩ := Prod.mk.injEq .. ▸ Option.some.injEq .. ▸ read
          obtain ⟨whole, inside, stops⟩ := span_iff.mp ⟨rfl, dropped⟩
          obtain rfl : closing = c := by simpa using stops closing rfl
          refine ⟨?_, fun member => ?_⟩
          · rw [String.toList_ofList, ← whole]
          · rw [String.toList_ofList] at member
            simpa using inside _ member
        next => cases read
      next => cases read
  · rintro ⟨rfl, free⟩
    obtain ⟨taken, dropped⟩ :=
      takeWhile_run (ne_of_notMem free) quote (bne_self_eq_false quote) (']' :: rest)
    rw [readQuoted, if_pos rfl, dropped]
    simp only [taken, String.ofList_toList]

theorem readBare_eq_some {source rest : List Char} {value : String} :
    readBare source = some (value, rest) ↔ Bare source value rest := by
  constructor
  · intro read
    unfold readBare at read
    split at read
    next closing after dropped =>
      obtain ⟨rfl, rfl⟩ := Prod.mk.injEq .. ▸ Option.some.injEq .. ▸ read
      obtain ⟨whole, inside, stops⟩ := span_iff.mp ⟨rfl, dropped⟩
      obtain rfl : closing = ']' := by simpa using stops closing rfl
      refine ⟨?_, fun member => ?_⟩
      · rw [String.toList_ofList, ← whole]
      · rw [String.toList_ofList] at member
        simpa using inside ']' member
    next => cases read
  · rintro ⟨rfl, free⟩
    obtain ⟨taken, dropped⟩ := takeWhile_run (ne_of_notMem free) ']' rfl rest
    rw [readBare, dropped]
    simp only [taken, String.ofList_toList]

theorem readQuoted_eq_none {quote : Char} {source : List Char} :
    readQuoted quote source = none ↔ ¬Fits quote source := by
  rw [Option.eq_none_iff_forall_not_mem, Fits]
  simp only [Option.mem_def, Prod.forall, readQuoted_eq_some, not_exists]

theorem readValue_eq_some {source rest : List Char} {value : String} :
    readValue source = some (value, rest) ↔ Valued source value rest := by
  simp only [readValue, Option.or_eq_some_iff, readQuoted_eq_some, readQuoted_eq_none,
    readBare_eq_some]
  constructor
  · rintro (quoted | ⟨first, quoted | ⟨second, plain⟩⟩)
    · exact .double quoted
    · exact .single first quoted
    · exact .bare first second plain
  · rintro (quoted | ⟨first, quoted⟩ | ⟨first, second, plain⟩)
    · exact .inl quoted
    · exact .inr ⟨first, .inl quoted⟩
    · exact .inr ⟨first, .inr ⟨second, plain⟩⟩

theorem Item.begins_of_readAttribute {source rest : List Char} {item : Item}
    (read : readAttribute source = some (item, rest)) : Item.Begins ('[' :: source) item rest := by
  unfold readAttribute at read
  split at read
  next => cases read
  next name after named =>
    obtain ⟨rfl, rfl⟩ := Prod.mk.injEq .. ▸ Option.some.injEq .. ▸ read
    exact .named (readRun_eq_some.mp named)
  next name text named =>
    obtain ⟨⟨value, after⟩, valued, pair⟩ := Option.map_eq_some_iff.mp read
    obtain ⟨rfl, rfl⟩ := Prod.mk.injEq .. ▸ pair
    exact .valued (readRun_eq_some.mp named) (readValue_eq_some.mp valued)
  next => cases read

theorem Item.begins_of_read {source rest : List Char} {item : Item}
    (read : Item.read source = some (item, rest)) : Item.Begins source item rest := by
  unfold Item.read at read
  split at read
  next text =>
    obtain ⟨rfl, rfl⟩ := Prod.mk.injEq .. ▸ Option.some.injEq .. ▸ read
    exact .openNot text
  next text =>
    obtain ⟨rfl, rfl⟩ := Prod.mk.injEq .. ▸ Option.some.injEq .. ▸ read
    exact .closeNot text
  next text =>
    obtain ⟨⟨name, after⟩, named, pair⟩ := Option.map_eq_some_iff.mp read
    obtain ⟨rfl, rfl⟩ := Prod.mk.injEq .. ▸ pair
    exact .hasClass (readRun_eq_some.mp named)
  next text =>
    obtain ⟨⟨value, after⟩, named, pair⟩ := Option.map_eq_some_iff.mp read
    obtain ⟨rfl, rfl⟩ := Prod.mk.injEq .. ▸ pair
    exact .hasId (readRun_eq_some.mp named)
  next text => exact Item.begins_of_readAttribute read
  next =>
    split at read
    next name after named =>
      obtain ⟨rfl, rfl⟩ := Prod.mk.injEq .. ▸ Option.some.injEq .. ▸ read
      exact .element (readRun_eq_some.mp named)
    next =>
      split at read
      next text dropped =>
        obtain ⟨rfl, rfl⟩ := Prod.mk.injEq .. ▸ Option.some.injEq .. ▸ read
        obtain ⟨whole, blankBefore, -⟩ := span_iff.mp ⟨rfl, dropped⟩
        obtain ⟨inner, blankAfter, maximal⟩ :=
          span_iff.mp ⟨rfl, rfl (a := text.dropWhile isBlank)⟩
        rw [whole]
        conv => arg 1; rw [inner]
        exact .comma blankBefore blankAfter maximal
      next => cases read

theorem Run.cons {p : Char → Bool} {source rest : List Char} {name : String}
    (run : Run p source name rest) : ∃ c tail, source = c :: tail ∧ p c = true := by
  have taken : name.toList ≠ [] := fun equal => run.nonempty (String.toList_eq_nil_iff.mp equal)
  obtain ⟨c, tail, cons⟩ := List.exists_cons_of_ne_nil taken
  refine ⟨c, tail ++ rest, ?_, run.members c (by rw [cons]; exact List.mem_cons_self ..)⟩
  rw [run.text, cons, List.cons_append]

/-- The characters at which an item begins that is neither an element name nor a comma. -/
def openers : List Char := [':', ')', '.', '#', '[']

theorem apart_of_mem_openers {c : Char} (member : c ∈ openers) :
    isNameChar c = false ∧ isBlank c = false ∧ c ≠ ',' := by
  have apart : (openers.all fun c => !isNameChar c && !isBlank c && c != ',') = true := by decide
  simpa [and_assoc] using List.all_eq_true.mp apart c member

/-- Where the first character begins no other item, an element name is read, or a comma. -/
theorem Item.read_plain {c : Char} {tail : List Char} (plain : c ∉ openers) :
    Item.read (c :: tail) =
      match readRun isNameChar (c :: tail) with
      | some (name, after) => some (.element name, after)
      | none =>
          match (c :: tail).dropWhile isBlank with
          | ',' :: rest => some (.comma, rest.dropWhile isBlank)
          | _ => none := by
  unfold Item.read
  split
  case h_6 => rfl
  all_goals next same =>
    cases same
    exact absurd (by decide) plain

theorem Item.read_element {source rest : List Char} {name : String}
    (run : Run isNameChar source name rest) : Item.read source = some (.element name, rest) := by
  obtain ⟨c, tail, rfl, member⟩ := run.cons
  have plain : c ∉ openers := by
    intro special
    rw [(apart_of_mem_openers special).1] at member
    cases member
  rw [Item.read_plain plain, readRun_eq_some.mpr run]

theorem Item.read_comma {before after rest : List Char}
    (blankBefore : ∀ c ∈ before, isBlank c = true) (blankAfter : ∀ c ∈ after, isBlank c = true)
    (maximal : ∀ c ∈ rest.head?, isBlank c = false) :
    Item.read (before ++ ',' :: (after ++ rest)) = some (.comma, rest) := by
  obtain ⟨c, tail, cons, first⟩ : ∃ c tail, before ++ ',' :: (after ++ rest) = c :: tail ∧
      (isBlank c = true ∨ c = ',') := by
    cases before with
    | nil => exact ⟨',', after ++ rest, rfl, .inr rfl⟩
    | cons c more => exact ⟨c, _, rfl, .inl (blankBefore c (List.mem_cons_self ..))⟩
  have notName : isNameChar c = false := by
    rcases first with blank | rfl
    · exact isNameChar_of_isBlank blank
    · decide
  have plain : c ∉ openers := by
    intro special
    obtain ⟨-, visible, other⟩ := apart_of_mem_openers special
    rcases first with blank | comma
    · rw [visible] at blank
      cases blank
    · exact other comma
  have unnamed : readRun isNameChar (c :: tail) = none := by
    rw [readRun, List.takeWhile_cons, notName]
    rfl
  have stops : ∀ c ∈ (',' :: (after ++ rest)).head?, isBlank c = false := by
    rintro _ ⟨⟩
    rfl
  obtain ⟨-, dropped⟩ := span_iff.mpr ⟨cons.symm, blankBefore, stops⟩
  obtain ⟨-, behind⟩ := span_iff.mpr ⟨rfl, blankAfter, maximal⟩
  rw [cons, Item.read_plain plain, unnamed, dropped]
  simp only [behind]

theorem Item.read_of_begins {source rest : List Char} {item : Item}
    (begins : Item.Begins source item rest) : Item.read source = some (item, rest) := by
  cases begins with
  | openNot | closeNot => rfl
  | element run => exact Item.read_element run
  | hasClass run | hasId run => rw [Item.read, readRun_eq_some.mpr run]; rfl
  | named run => rw [Item.read, readAttribute, readRun_eq_some.mpr run]; rfl
  | valued run valued =>
      rw [Item.read, readAttribute, readRun_eq_some.mpr run]
      exact Option.map_eq_some_iff.mpr ⟨_, readValue_eq_some.mpr valued, rfl⟩
  | comma blankBefore blankAfter maximal => exact Item.read_comma blankBefore blankAfter maximal

theorem Item.read_eq_some {source rest : List Char} {item : Item} :
    Item.read source = some (item, rest) ↔ Item.Begins source item rest :=
  ⟨Item.begins_of_read, Item.read_of_begins⟩

/-- The scan finds the items of a text, where it consists of items. -/
theorem tiled_iff {source : List Char} {items : List Item} :
    Tiled source items ↔ Item.scan source = (items, []) := by
  constructor
  · intro tiled
    induction tiled with
    | nil => exact Item.scan_of_none rfl
    | cons begins _ induction => rw [Item.scan_of_read (Item.read_eq_some.mpr begins), induction]
  · intro scanned
    induction items generalizing source with
    | nil =>
        match read : Item.read source with
        | none =>
            rw [Item.scan_of_none read] at scanned
            cases scanned
            exact .nil
        | some (item, rest) =>
            rw [Item.scan_of_read read] at scanned
            cases scanned
    | cons first items induction =>
        match read : Item.read source with
        | none =>
            rw [Item.scan_of_none read] at scanned
            cases scanned
        | some (item, rest) =>
            rw [Item.scan_of_read read] at scanned
            obtain ⟨same, left⟩ := Prod.mk.injEq .. ▸ scanned
            obtain ⟨rfl, tail⟩ := List.cons.injEq .. ▸ same
            exact .cons (Item.read_eq_some.mp read) (induction (Prod.ext tail left))

end Selector

end ViewTemplates
