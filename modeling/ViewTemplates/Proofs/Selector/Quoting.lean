import ViewTemplates.Proofs.Selector.Writing

/-!
Values without quotes. A written value goes up to its bracket, so it is read back as it is where it
holds no bracket and is not taken for a value in quotes. That is so where it begins with a quote
that comes back later with a bracket directly behind it, at the end of this value or of a later one.
-/

namespace ViewTemplates.Selector

/-- The quote comes back, and the first of the texts that holds it ends there. -/
def Closes (quote : Char) : List (List Char) → Prop
  | [] => False
  | text :: rest =>
      if quote ∈ text then text.dropWhile (· != quote) = [quote] else Closes quote rest

instance decidableCloses (quote : Char) :
    (texts : List (List Char)) → Decidable (Closes quote texts)
  | [] => inferInstanceAs (Decidable False)
  | text :: rest =>
      have := decidableCloses quote rest
      inferInstanceAs (Decidable
        (if quote ∈ text then text.dropWhile (· != quote) = [quote] else Closes quote rest))

def quotes : List Char := ['"', '\'']

/-- No value holds a bracket, and none begins with a quote that it or a later one closes. -/
def Unquoted : List (List Char) → Prop
  | [] => True
  | value :: rest =>
      (']' ∉ value ∧
        ∀ quote ∈ quotes, value.head? = some quote → ¬Closes quote (value.tail :: rest)) ∧
      Unquoted rest

instance decidableUnquoted : (values : List (List Char)) → Decidable (Unquoted values)
  | [] => inferInstanceAs (Decidable True)
  | value :: rest =>
      have := decidableUnquoted rest
      have := List.decidableBAll
        (fun quote => value.head? = some quote → ¬Closes quote (value.tail :: rest)) quotes
      inferInstanceAs (Decidable ((']' ∉ value ∧
        ∀ quote ∈ quotes, value.head? = some quote → ¬Closes quote (value.tail :: rest)) ∧
        Unquoted rest))

theorem Unquoted.notMem {values : List (List Char)} (unquoted : Unquoted values) :
    ∀ value ∈ values, ']' ∉ value := by
  induction values with
  | nil => exact nofun
  | cons value rest induction =>
      exact List.forall_mem_cons.mpr ⟨unquoted.1.1, induction unquoted.2⟩

/-! Quotes in a text. -/

/-- The first such quote in the text has a bracket directly behind it. -/
def Sealed (quote : Char) (text : List Char) : Prop :=
  ∃ rest, text.dropWhile (· != quote) = quote :: ']' :: rest

theorem fits_iff {quote : Char} {source : List Char} :
    Fits quote source ↔ ∃ text, source = quote :: text ∧ Sealed quote text := by
  constructor
  · rintro ⟨value, rest, rfl, free⟩
    refine ⟨_, rfl, rest, ?_⟩
    exact (Text.takeWhile_run (Text.ne_of_notMem free) quote (bne_self_eq_false quote) _).2
  · rintro ⟨text, rfl, rest, dropped⟩
    obtain ⟨whole, inside, -⟩ := Text.span_iff.mp ⟨rfl, dropped⟩
    refine ⟨String.ofList (text.takeWhile (· != quote)), rest, ?_, fun member => ?_⟩
    · rw [String.toList_ofList, ← whole]
    · rw [String.toList_ofList] at member
      simpa using inside quote member

theorem sealed_append {quote : Char} {front : List Char} (free : quote ∉ front)
    (behind : List Char) : Sealed quote (front ++ behind) ↔ Sealed quote behind := by
  rw [Sealed, List.dropWhile_append_of_pos (Text.ne_of_notMem free), Sealed]

/-- A value without brackets, the bracket behind it and more. -/
theorem sealed_value {quote : Char} {value : List Char} (plain : ']' ∉ value) (other : quote ≠ ']')
    (behind : List Char) : Sealed quote (value ++ ']' :: behind) ↔
      if quote ∈ value then value.dropWhile (· != quote) = [quote] else Sealed quote behind := by
  split
  next member =>
    obtain ⟨front, back, rfl, free⟩ := List.eq_append_cons_of_mem member
    have spans := Text.ne_of_notMem free
    have stops : (quote != quote) = false := bne_self_eq_false quote
    rw [Sealed, List.append_assoc, List.cons_append,
      (Text.takeWhile_run spans quote stops (back ++ ']' :: behind)).2,
      (Text.takeWhile_run spans quote stops back).2]
    cases back with
    | nil => exact iff_of_true ⟨behind, rfl⟩ rfl
    | cons c back =>
        refine iff_of_false ?_ (by simp)
        rintro ⟨rest, equal⟩
        obtain ⟨rfl, -⟩ := List.cons.inj (List.cons.inj equal).2
        exact plain (by simp)
  next absent =>
    have free : quote ∉ value ++ [']'] := by
      rw [List.mem_append, List.mem_singleton, not_or]
      exact ⟨absent, other⟩
    have moved := sealed_append free behind
    rwa [List.append_assoc, List.singleton_append] at moved

/-! Quotes in a written text. -/

def Item.value? : Item → Option (List Char)
  | .attribute _ value => some value.toList
  | _ => none

def Item.values (items : List Item) : List (List Char) := items.filterMap Item.value?

theorem apart_of_mem_quotes {quote : Char} (member : quote ∈ quotes) :
    isNameChar quote = false ∧ isAttributeChar quote = false ∧
      quote ∉ ['[', ']', '=', '.', '#', ':', 'n', 'o', 't', '(', ')'] := by
  rcases List.mem_pair.mp member with rfl | rfl
  · decide
  · decide

variable {quote : Char} {item : Item} {items : List Item} {name value : String}
  {behind : List Char}

theorem notMem_of_worded {p : Char → Bool} (inside : ∀ c ∈ name.toList, p c = true)
    (other : p quote = false) : quote ∉ name.toList := by
  intro member
  rw [inside quote member] at other
  cases other

/-- There are quotes in values only. -/
theorem Item.Written.notMem_text (written : item.Written) (unvalued : item.value? = none)
    (member : quote ∈ quotes) : quote ∉ item.text := by
  obtain ⟨worded, other, -⟩ := written
  obtain ⟨unnamed, -, plain⟩ := apart_of_mem_quotes member
  simp only [List.mem_cons, List.not_mem_nil, or_false, not_or] at plain
  cases item with
  | element name => exact notMem_of_worded worded.2 unnamed
  | hasClass name | hasId name =>
      rw [Item.text, List.mem_cons, not_or]
      exact ⟨by tauto, notMem_of_worded worded.2 unnamed⟩
  | «attribute» name value => cases unvalued
  | openNot | closeNot =>
      simp only [Item.text, List.mem_cons, List.not_mem_nil, or_false, not_or]
      tauto
  | comma => exact absurd rfl other

theorem sealed_attribute (inside : ∀ c ∈ name.toList, isAttributeChar c = true)
    (member : quote ∈ quotes) (plain : ']' ∉ value.toList) :
    Sealed quote ((Item.attribute name value).text ++ behind) ↔
      if quote ∈ value.toList then value.toList.dropWhile (· != quote) = [quote]
      else Sealed quote behind := by
  obtain ⟨-, unnamed, others⟩ := apart_of_mem_quotes member
  simp only [List.mem_cons, List.not_mem_nil, or_false, not_or] at others
  have absent := notMem_of_worded inside unnamed
  rw [Item.text]
  split
  next nothing =>
    have free : quote ∉ '[' :: (name.toList ++ [']']) := by
      simp only [List.mem_cons, List.mem_append, List.not_mem_nil, or_false, not_or]
      tauto
    rw [sealed_append free, nothing, if_neg (by simp)]
  next =>
    have free : quote ∉ '[' :: (name.toList ++ ['=']) := by
      simp only [List.mem_cons, List.mem_append, List.not_mem_nil, or_false, not_or]
      tauto
    have moved := sealed_append free (value.toList ++ ']' :: behind)
    rw [← sealed_value plain (by tauto) behind, ← moved]
    simp

/-- A quote is closed in a written text where the values close it. -/
theorem sealed_texts (written : ∀ item ∈ items, item.Written) (member : quote ∈ quotes)
    (plain : ∀ value ∈ Item.values items, ']' ∉ value) :
    Sealed quote (Item.texts items) ↔ Closes quote (Item.values items) := by
  induction items with
  | nil => exact iff_of_false nofun not_false
  | cons item rest induction =>
      obtain ⟨first, others⟩ := List.forall_mem_cons.mp written
      cases valued : item.value? with
      | none =>
          have same : Item.values (item :: rest) = Item.values rest :=
            List.filterMap_cons_none valued
          rw [same] at plain ⊢
          rw [← induction others plain]
          exact sealed_append (first.notMem_text valued member) _
      | some text =>
          cases item with
          | «attribute» name value =>
              have split : Item.values (.attribute name value :: rest) =
                  value.toList :: Item.values rest := rfl
              rw [split] at plain ⊢
              obtain ⟨here, later⟩ := List.forall_mem_cons.mp plain
              rw [Closes, ← induction others later]
              exact sealed_attribute first.worded member here
          | _ => cases valued

/-- A written value is taken for one in quotes where it begins with a quote that is closed. -/
theorem fits_value {text : List Char} (written : ∀ item ∈ items, item.Written)
    (member : quote ∈ quotes) (plain : ']' ∉ text)
    (others : ∀ value ∈ Item.values items, ']' ∉ value) :
    Fits quote (text ++ ']' :: Item.texts items) ↔
      text.head? = some quote ∧ Closes quote (text.tail :: Item.values items) := by
  have bracket : quote ≠ ']' := by
    rintro rfl
    exact absurd member (by decide)
  rw [fits_iff]
  cases text with
  | nil =>
      refine iff_of_false ?_ nofun
      rintro ⟨text, equal, -⟩
      exact bracket (List.cons.inj equal).1.symm
  | cons c tail =>
      rw [List.mem_cons, not_or] at plain
      rw [List.tail_cons, Closes, ← sealed_texts written member others,
        ← sealed_value plain.2 bracket, List.head?_cons, Option.some.injEq, List.cons_append]
      constructor
      · rintro ⟨_, equal, sealed⟩
        obtain ⟨same, rfl⟩ := List.cons.inj equal
        exact ⟨same, sealed⟩
      · rintro ⟨rfl, sealed⟩
        exact ⟨_, rfl, sealed⟩

/-! Items where they are written. -/

/-- No name goes on where no element name stands behind it. -/
theorem head?_texts (written : ∀ item ∈ items, item.Written)
    (ends : ∀ item ∈ items.head?, item.elementName? = none) :
    ∀ c ∈ (Item.texts items).head?, isNameChar c = false := by
  cases items with
  | nil => exact nofun
  | cons first rest =>
      have unnamed := ends first rfl
      cases first with
      | element name => cases unnamed
      | comma => exact absurd rfl (written _ List.mem_cons_self).other
      | hasClass | hasId | «attribute» | openNot | closeNot =>
          rintro _ ⟨⟩
          decide

/-- An item without a value is read where it is written. -/
theorem Item.Written.begins (written : item.Written) (unvalued : item.value? = none)
    (ends : item ≠ .openNot → ∀ c ∈ behind.head?, isNameChar c = false) :
    Item.Begins (item.text ++ behind) item behind := by
  obtain ⟨worded, other, -⟩ := written
  cases item with
  | element name => exact .element ⟨rfl, worded.1, worded.2, ends nofun⟩
  | hasClass name => exact .hasClass ⟨rfl, worded.1, worded.2, ends nofun⟩
  | hasId value => exact .hasId ⟨rfl, worded.1, worded.2, ends nofun⟩
  | «attribute» name value => cases unvalued
  | openNot => exact .openNot behind
  | closeNot => exact .closeNot behind
  | comma => exact absurd rfl other

/-- The value is read where it is written without quotes. -/
def Stands (value behind : List Char) : Prop :=
  ']' ∉ value ∧ ∀ quote ∈ quotes, ¬Fits quote (value ++ ']' :: behind)

theorem run_attribute (inside : ∀ c ∈ name.toList, isAttributeChar c = true) (named : name ≠ "")
    (stop : Char) (stops : isAttributeChar stop = false) (rest : List Char) :
    Run isAttributeChar (name.toList ++ stop :: rest) name (stop :: rest) := by
  refine ⟨rfl, named, inside, ?_⟩
  rintro _ ⟨⟩
  exact stops

theorem begins_attribute (inside : ∀ c ∈ name.toList, isAttributeChar c = true)
    (named : name ≠ "") (stands : value ≠ "" → Stands value.toList behind) :
    Item.Begins ((Item.attribute name value).text ++ behind) (.attribute name value) behind := by
  rw [Item.text]
  split
  next nothing =>
    subst nothing
    have run := run_attribute inside named ']' rfl behind
    simpa using Item.Begins.named run
  next something =>
    obtain ⟨plain, unquoted⟩ := stands something
    have run := run_attribute inside named '=' rfl (value.toList ++ ']' :: behind)
    have valued : Valued (value.toList ++ ']' :: behind) value behind :=
      .bare (unquoted _ (by decide)) (unquoted _ (by decide)) ⟨rfl, plain⟩
    simpa using Item.Begins.valued run valued

/-- A value that is read with the right letters is read as it is written. -/
theorem Valued.stands {value read : String} {rest : List Char}
    (valued : Valued (value.toList ++ ']' :: behind) read rest) (same : Text.lowered read = value) :
    read = value ∧ rest = behind ∧ Stands value.toList behind := by
  -- Quotes and brackets come of no other character, so what is read holds those of the value.
  have kept {c : Char} (small : c.toNat < 97) (member : c ∈ value.toList) : c ∈ read.toList := by
    rw [← same, Text.lowered, String.toList_ofList] at member
    exact Text.mem_of_mem_lower small member
  have quoted {quote : Char} (small : quote.toNat < 97) (other : quote ≠ ']')
      (quoted : Quoted quote (value.toList ++ ']' :: behind) read rest) : False := by
    obtain ⟨text, free⟩ := quoted
    cases letters : value.toList with
    | nil =>
        rw [letters] at text
        exact other (List.cons.inj text).1.symm
    | cons c tail =>
        rw [letters] at text kept
        obtain ⟨rfl, -⟩ := List.cons.inj text
        exact free (kept small List.mem_cons_self)
  cases valued with
  | double found => exact (quoted (by decide) (by decide) found).elim
  | single _ found => exact (quoted (by decide) (by decide) found).elim
  | bare first second plain =>
      obtain ⟨text, free⟩ := plain
      have absent : ']' ∉ value.toList := fun member => free (kept (by decide) member)
      obtain ⟨taken, dropped⟩ := Text.takeWhile_run (Text.ne_of_notMem free) ']' rfl rest
      obtain ⟨letters, left⟩ := Text.takeWhile_run (Text.ne_of_notMem absent) ']' rfl behind
      rw [← text] at taken dropped
      refine ⟨String.toList_inj.mp (taken.symm.trans letters),
        (List.cons.inj (dropped.symm.trans left)).2, absent, ?_⟩
      exact List.forall_mem_cons.mpr ⟨first, List.forall_mem_singleton.mpr second⟩

/-- A name that is read where another one is written with no such character behind it is that
name. -/
theorem Run.unique {rest after : List Char} {other : String}
    (inside : ∀ c ∈ name.toList, isAttributeChar c = true) (stop : Char)
    (stops : isAttributeChar stop = false)
    (run : Run isAttributeChar (name.toList ++ stop :: rest) other after) :
    name ≠ "" ∧ other = name ∧ after = stop :: rest := by
  have named : name ≠ "" := by
    rintro rfl
    obtain ⟨c, tail, first, member⟩ := run.cons
    obtain ⟨rfl, -⟩ := List.cons.inj first
    rw [stops] at member
    cases member
  have read := readRun_eq_some.mpr (run_attribute inside named stop stops rest)
  rw [readRun_eq_some.mpr run] at read
  cases read
  exact ⟨named, rfl, rfl⟩

/-- What begins with a bracket is an attribute. -/
theorem Item.Begins.bracket {source rest : List Char} {item : Item}
    (begins : Item.Begins ('[' :: source) item rest) : ∃ name value, item = .attribute name value ∧
      (value = "" ∧ Run isAttributeChar source name (']' :: rest) ∨
        ∃ text, Run isAttributeChar source name ('=' :: text) ∧ Valued text value rest) := by
  have read : readAttribute source = some (item, rest) := Item.read_of_begins begins
  unfold readAttribute at read
  split at read
  next => cases read
  next name after named =>
    cases read
    exact ⟨name, "", rfl, .inl ⟨rfl, readRun_eq_some.mp named⟩⟩
  next name text named =>
    obtain ⟨⟨value, after⟩, valued, pair⟩ := Option.map_eq_some_iff.mp read
    cases pair
    exact ⟨name, value, rfl, .inr ⟨text, readRun_eq_some.mp named, readValue_eq_some.mp valued⟩⟩
  next => cases read

/-- What is read where an attribute is written is an attribute of that name. -/
theorem of_begins_attribute {other : Item} {rest : List Char}
    (inside : ∀ c ∈ name.toList, isAttributeChar c = true)
    (begins : Item.Begins ((Item.attribute name value).text ++ behind) other rest) :
    name ≠ "" ∧ ∃ read, other = .attribute name read ∧ (Text.lowered read = value →
      read = value ∧ rest = behind ∧ (value ≠ "" → Stands value.toList behind)) := by
  rw [Item.text, List.cons_append, List.append_assoc] at begins
  obtain ⟨found, read, rfl, ⟨rfl, run⟩ | ⟨text, run, valued⟩⟩ := begins.bracket
  · split at run
    next nothing =>
      obtain ⟨named, rfl, left⟩ := run.unique inside ']' rfl
      refine ⟨named, "", rfl, fun _ => ⟨nothing.symm, (List.cons.inj left).2, ?_⟩⟩
      exact fun something => absurd nothing something
    next =>
      obtain ⟨-, -, left⟩ := run.unique inside '=' rfl
      exact absurd (List.cons.inj left).1 (by decide)
  · split at run
    next =>
      obtain ⟨-, -, left⟩ := run.unique inside ']' rfl
      exact absurd (List.cons.inj left).1 (by decide)
    next =>
      rw [List.cons_append, List.append_assoc] at run
      obtain ⟨named, rfl, left⟩ := run.unique inside '=' rfl
      obtain ⟨-, rfl⟩ := List.cons.inj left
      refine ⟨named, read, rfl, fun same => ?_⟩
      obtain ⟨equal, last, stands⟩ := valued.stands same
      exact ⟨equal, last, fun _ => stands⟩

/-! Items that are all read where they are written. -/

/-- Each of the items is read at the left end of what is written from it on. -/
def Item.Tiles : List Item → Prop
  | [] => True
  | item :: rest => Item.Begins (item.text ++ Item.texts rest) item (Item.texts rest) ∧ Tiles rest

theorem Item.Tiles.tiled (tiles : Item.Tiles items) : Tiled (Item.texts items) items := by
  induction items with
  | nil => exact .nil
  | cons item rest induction => exact .cons tiles.1 (induction tiles.2)

def Item.Named : Item → Prop
  | .attribute name _ => name ≠ ""
  | _ => True

theorem stands_texts (written : ∀ item ∈ items, item.Written)
    (others : ∀ value ∈ Item.values items, ']' ∉ value) {text : List Char} :
    Stands text (Item.texts items) ↔ ']' ∉ text ∧ ∀ quote ∈ quotes,
      text.head? = some quote → ¬Closes quote (text.tail :: Item.values items) := by
  refine and_congr_right fun plain => forall₂_congr fun quote member => ?_
  rw [fits_value written member plain others, not_and]

/-- The items of a text are read where they are written if the attributes have names and the values
need no quotes. -/
theorem Item.tiles_iff (written : ∀ item ∈ items, item.Written)
    (chain : items.IsChain Item.Separate) :
    Item.Tiles items ↔ (∀ item ∈ items, item.Named) ∧ Unquoted (Item.values items) := by
  induction items with
  | nil => exact iff_of_true trivial ⟨nofun, trivial⟩
  | cons item rest induction =>
      obtain ⟨first, others⟩ := List.forall_mem_cons.mp written
      obtain ⟨separate, chained⟩ := List.isChain_cons.mp chain
      rw [Item.Tiles, induction others chained, List.forall_mem_cons]
      cases valued : item.value? with
      | none =>
          have same : Item.values (item :: rest) = Item.values rest :=
            List.filterMap_cons_none valued
          have ends (other : item ≠ .openNot) :
              ∀ c ∈ (Item.texts rest).head?, isNameChar c = false :=
            head?_texts others fun next head => (separate next head).resolve_right other
          have named : item.Named := by
            cases item with
            | «attribute» name value => cases valued
            | _ => trivial
          rw [same, and_iff_right (first.begins valued ends), and_iff_right named]
      | some text =>
          cases item with
          | «attribute» name value =>
              have inside : ∀ c ∈ name.toList, isAttributeChar c = true := first.worded
              have split : Item.values (.attribute name value :: rest) =
                  value.toList :: Item.values rest := rfl
              rw [split, Unquoted]
              constructor
              · rintro ⟨begins, named, unquoted⟩
                obtain ⟨nonempty, read, equal, stands⟩ := of_begins_attribute inside begins
                cases equal
                obtain ⟨-, -, stands⟩ := stands (first.low _ _ rfl)
                refine ⟨⟨nonempty, named⟩, ?_, unquoted⟩
                by_cases nothing : value = ""
                · rw [nothing]
                  exact ⟨List.not_mem_nil, nofun⟩
                · exact (stands_texts others unquoted.notMem).mp (stands nothing)
              · rintro ⟨⟨nonempty, named⟩, plain, unquoted⟩
                refine ⟨begins_attribute inside nonempty fun _ => ?_, named, unquoted⟩
                exact (stands_texts others unquoted.notMem).mpr plain
          | _ => cases valued

end ViewTemplates.Selector
