import ViewTemplates.Proofs.Selector.Quoting

/-!
Reading a written selector again. A draft never loses what its compounds ask for, so another way to
read the written text would leave an attribute with another value than the selector has: the text is
read as the selector where its items are read as they are written, and nowhere else.
-/

namespace ViewTemplates

namespace Selector

/-! Growing drafts. -/

namespace Draft

variable {draft middle next : Draft} {item : Item} {items : List Item}
  {f : Compound → Compound}

/-- What stands outside the groups, and the groups so far. -/
def compounds (draft : Draft) : List Compound :=
  draft.required :: (draft.excluded ++ draft.group.toList)

/-- The place among the compounds to which the next item comes. -/
def place (draft : Draft) : Nat :=
  match draft.group with
  | some _ => draft.excluded.length + 1
  | none => 0

theorem compounds_modify (draft : Draft) (f : Compound → Compound) :
    (draft.modify f).compounds = draft.compounds.modify draft.place f := by
  obtain ⟨complete, required, excluded, _ | group⟩ := draft
  · rfl
  · have last : (excluded ++ [group]).modify excluded.length f = excluded ++ [f group] := by
      rw [List.modify_eq_take_cons_drop (by simp)]
      simp
    exact (congrArg (required :: ·) last).symm

theorem complete_modify (draft : Draft) (f : Compound → Compound) :
    (draft.modify f).complete = draft.complete := by
  obtain ⟨complete, required, excluded, _ | group⟩ := draft <;> rfl

theorem exists_current (draft : Draft) :
    ∃ current, draft.compounds[draft.place]? = some current := by
  obtain ⟨complete, required, excluded, _ | group⟩ := draft
  · exact ⟨required, rfl⟩
  · exact ⟨group, by simp [compounds, place]⟩

theorem exists_complete (completed : draft.complete? = .ok next) :
    ∃ last, next.complete = draft.complete ++ [last] := by
  rw [complete?] at completed
  split at completed
  next =>
    split at completed
    next => cases completed
    next =>
      cases completed
      exact ⟨_, rfl⟩
  next =>
    cases completed
    exact ⟨_, rfl⟩

/-- No alternative that is complete is lost; and while none is completed, every compound keeps its
place and its attributes. -/
structure Grows (draft next : Draft) : Prop where
  complete : draft.complete <+: next.complete
  compounds : draft.complete = next.complete → ∀ (place : Nat) (compound : Compound),
    draft.compounds[place]? = some compound → ∃ more, next.compounds[place]? = some more ∧
      compound.attributes <+: more.attributes

namespace Grows

theorem refl (draft : Draft) : draft.Grows draft :=
  ⟨List.prefix_rfl, fun _ _ compound found => ⟨compound, found, List.prefix_rfl⟩⟩

theorem trans (first : draft.Grows middle) (second : middle.Grows next) : draft.Grows next := by
  refine ⟨first.complete.trans second.complete, fun same place compound found => ?_⟩
  have early : draft.complete = middle.complete :=
    first.complete.eq_of_length_le (same ▸ second.complete.length_le)
  obtain ⟨more, inMiddle, begins⟩ := first.compounds early place compound found
  obtain ⟨most, inNext, goesOn⟩ := second.compounds (early ▸ same) place more inMiddle
  exact ⟨most, inNext, begins.trans goesOn⟩

theorem modify (draft : Draft)
    (keeps : ∀ compound, compound.attributes <+: (f compound).attributes) :
    draft.Grows (draft.modify f) := by
  constructor
  case complete =>
    exact (complete_modify ..).symm ▸ List.prefix_rfl
  case compounds =>
    intro _ place compound found
    rw [compounds_modify, List.getElem?_modify, found]
    refine ⟨_, rfl, ?_⟩
    split
    · exact keeps compound
    · exact List.prefix_rfl

theorem of_add {draft : Draft} (added : draft.add item = .ok next) : draft.Grows next := by
  cases item with
  | element name | hasClass name =>
      cases added
      exact modify draft fun _ => List.prefix_rfl
  | hasId value =>
      cases added
      exact modify draft fun _ => List.prefix_append _ _
  | «attribute» name value =>
      rw [Draft.add] at added
      split at added
      next => cases added
      next =>
        cases added
        exact modify draft fun _ => List.prefix_append _ _
  | openNot =>
      rw [Draft.add] at added
      split at added
      next => cases added
      next none =>
        cases added
        refine ⟨List.prefix_rfl, fun _ place compound found => ⟨compound, ?_, List.prefix_rfl⟩⟩
        rw [Draft.compounds, none, Option.toList_none, List.append_nil] at found
        rw [Draft.compounds, ← List.cons_append]
        exact List.getElem?_append_left (List.getElem?_eq_some_iff.mp found).1 ▸ found
  | closeNot =>
      rw [Draft.add] at added
      split at added
      next => cases added
      next group opened =>
        cases added
        refine ⟨List.prefix_rfl, fun _ place compound found => ⟨compound, ?_, List.prefix_rfl⟩⟩
        rw [Draft.compounds, opened] at found
        rwa [Draft.compounds, Option.toList_none, List.append_nil]
  | comma =>
      rw [Draft.add] at added
      split at added
      next => cases added
      next =>
        obtain ⟨last, longer⟩ := exists_complete added
        refine ⟨longer ▸ List.prefix_append _ _, fun same => ?_⟩
        rw [longer] at same
        exact absurd same (by simp)

theorem of_addAll {draft : Draft} (added : draft.addAll items = .ok next) : draft.Grows next := by
  induction items generalizing draft with
  | nil =>
      cases added
      exact refl _
  | cons item rest induction =>
      rw [addAll] at added
      split at added
      next => cases added
      next step => exact (of_add step).trans (induction added)

/-- Two values at one place that a draft grows to from both of them are one. -/
theorem same_value {name : String} {one other : String}
    (first : (draft.modify (·.addAttribute name one)).Grows next)
    (second : (draft.modify (·.addAttribute name other)).Grows next)
    (same : next.complete = draft.complete) : Text.lowered one = Text.lowered other := by
  obtain ⟨current, found⟩ := draft.exists_current
  have grown {value : String} (grows : (draft.modify (·.addAttribute name value)).Grows next) :
      ∃ more, next.compounds[draft.place]? = some more ∧
        current.attributes ++ [(name, Text.lowered value)] <+: more.attributes := by
    refine grows.compounds ?_ draft.place (current.addAttribute name value) ?_
    · rw [complete_modify, same]
    · rw [compounds_modify, List.getElem?_modify_eq, found]
      rfl
  obtain ⟨more, inNext, begins⟩ := grown first
  obtain ⟨again, inNext', begins'⟩ := grown second
  obtain rfl : more = again := Option.some.inj (inNext.symm.trans inNext')
  have longer : current.attributes ++ [(name, Text.lowered one)] <+:
      current.attributes ++ [(name, Text.lowered other)] :=
    List.prefix_of_prefix_length_le begins begins' (by simp)
  have equal := longer.eq_of_length (by simp)
  simpa using equal

end Grows

theorem addAll_cons {rest : List Item} : draft.addAll (item :: rest) = .ok next ↔
    ∃ middle, draft.add item = .ok middle ∧ middle.addAll rest = .ok next := by
  rw [addAll]
  split
  next failed =>
    rw [failed]
    simp
  next middle step =>
    rw [step]
    simp

theorem add_attribute {name value : String} : draft.add (.attribute name value) = .ok next ↔
    ∃ plain, unescape false name.toList = some plain ∧
      draft.modify (·.addAttribute (String.ofList plain) value) = next := by
  rw [add]
  split
  next failed => simp [failed]
  next plain unescaped => simp [unescaped]

end Draft

/-! Two ways to read a written text. -/

theorem Tiled.exists_cons {source : List Char} {items : List Item} (tiled : Tiled source items)
    (text : source ≠ []) : ∃ first rest more, items = first :: more ∧
      Item.Begins source first rest ∧ Tiled rest more := by
  cases tiled with
  | nil => contradiction
  | cons begins behind => exact ⟨_, _, _, rfl, begins, behind⟩

/-- Where a draft grows to the same over the items and over another way to read their text, each
item is read where it is written. -/
theorem tiles_of_tiled {draft last : Draft} {items others : List Item}
    (written : ∀ item ∈ items, item.Written) (chain : items.IsChain Item.Separate)
    (tiled : Tiled (Item.texts items) others) (added : draft.addAll items = .ok last)
    (again : draft.addAll others = .ok last) (same : last.complete = draft.complete) :
    Item.Tiles items := by
  induction items generalizing draft others with
  | nil => trivial
  | cons item rest induction =>
      obtain ⟨first, behind⟩ := List.forall_mem_cons.mp written
      obtain ⟨separate, chained⟩ := List.isChain_cons.mp chain
      have text : Item.texts (item :: rest) ≠ [] :=
        List.append_ne_nil_of_left_ne_nil first.text_ends.1 _
      obtain ⟨other, left, more, rfl, begins, tiledLeft⟩ := tiled.exists_cons text
      have whole : Item.texts (item :: rest) = item.text ++ Item.texts rest := rfl
      rw [whole] at begins
      obtain ⟨middle, step, steps⟩ := Draft.addAll_cons.mp added
      obtain ⟨middle', step', steps'⟩ := Draft.addAll_cons.mp again
      have unfinished : last.complete = middle.complete := by
        have early := (Draft.Grows.of_add step).complete.length_le
        rw [← same] at early
        exact ((Draft.Grows.of_addAll steps).complete.eq_of_length_le early).symm
      -- Only a value can be read in another way. The draft keeps what it was read as, so the letters
      -- of both readings are the same, and they rule the other way out.
      cases valued : item.value? with
      | none =>
          have ends (opener : item ≠ .openNot) :
              ∀ c ∈ (Item.texts rest).head?, isNameChar c = false :=
            head?_texts behind fun next head => (separate next head).resolve_right opener
          have here := first.begins valued ends
          have read := Item.read_of_begins here
          rw [Item.read_of_begins begins] at read
          cases read
          rw [step] at step'
          cases step'
          exact ⟨here, induction behind chained tiledLeft steps steps' unfinished⟩
      | some text =>
          cases item with
          | «attribute» name value =>
              have inside : ∀ c ∈ name.toList, isAttributeChar c = true := first.worded
              obtain ⟨named, read, rfl, stands⟩ := of_begins_attribute inside begins
              obtain ⟨plain, unescaped, rfl⟩ := Draft.add_attribute.mp step
              obtain ⟨plain', unescaped', rfl⟩ := Draft.add_attribute.mp step'
              obtain rfl : plain = plain' := Option.some.inj (unescaped.symm.trans unescaped')
              have letters : Text.lowered read = Text.lowered value :=
                Draft.Grows.same_value (.of_addAll steps') (.of_addAll steps) same
              rw [first.low _ _ rfl] at letters
              obtain ⟨rfl, rfl, plainly⟩ := stands letters
              exact ⟨begins_attribute inside named plainly,
                induction behind chained tiledLeft steps steps' unfinished⟩
          | _ => cases valued

/-! Reading a selector again. -/

end Selector

/-- All attributes that are asked for, in the order in which they are written. -/
def Selector.entries (selector : Selector) : List (String × String) :=
  selector.required.attributes ++ selector.excluded.flatMap Compound.attributes

/-- The selector can be read again where it is written: it requires no implied star, the attributes
have names, and the values need no quotes. -/
structure Selector.Rereadable (selector : Selector) : Prop where
  element : selector.required.element ≠ some "*"
  names : ∀ entry ∈ selector.entries, entry.1 ≠ ""
  values : Unquoted (selector.entries.map fun entry => entry.2.toList)

namespace Selector

variable {selector : Selector}

theorem rereadable_iff : selector.Rereadable ↔ selector.required.element ≠ some "*" ∧
    (∀ entry ∈ selector.entries, entry.1 ≠ "") ∧
      Unquoted (selector.entries.map fun entry => entry.2.toList) :=
  ⟨fun ⟨element, names, values⟩ => ⟨element, names, values⟩,
    fun ⟨element, names, values⟩ => ⟨element, names, values⟩⟩

instance : Decidable selector.Rereadable := decidable_of_iff' _ rereadable_iff

theorem values_items (selector : Selector) :
    Item.values selector.items = selector.entries.map fun entry => entry.2.toList := by
  have compound (compound : Compound) : compound.items.filterMap Item.value? =
      compound.attributes.map fun entry => entry.2.toList := by
    simp [Compound.items, Item.value?, Item.ofEntry, Function.comp_def]
  have group (group : Compound) : group.groupItems.filterMap Item.value? =
      group.attributes.map fun entry => entry.2.toList := by
    simp [Compound.groupItems, compound, Item.value?, List.filterMap_cons]
  simp [Item.values, items, entries, compound, group, List.filterMap_flatMap, List.map_flatMap]

theorem named_items (selector : Selector) : (∀ item ∈ selector.items, item.Named) ↔
    ∀ entry ∈ selector.entries, entry.1 ≠ "" := by
  have entry (entry : String × String) : (Item.ofEntry entry).Named ↔ entry.1 ≠ "" := by
    rw [Item.ofEntry, Item.Named, ne_eq, String.ofList_eq_empty_iff, escapeDollars_eq_nil,
      String.toList_eq_nil_iff]
  have compound (compound : Compound) : (∀ item ∈ compound.items, item.Named) ↔
      ∀ entry ∈ compound.attributes, entry.1 ≠ "" := by
    simp only [Compound.items, List.forall_mem_append, List.forall_mem_map, entry]
    exact and_iff_right (fun _ _ => trivial) |>.trans (and_iff_right fun _ _ => trivial)
  have group (group : Compound) : (∀ item ∈ group.groupItems, item.Named) ↔
      ∀ entry ∈ group.attributes, entry.1 ≠ "" := by
    rw [Compound.groupItems, List.forall_mem_cons, List.forall_mem_append, compound,
      List.forall_mem_singleton]
    exact (and_iff_right trivial).trans (and_iff_left trivial)
  simp only [items, entries, List.forall_mem_append, List.forall_mem_flatMap, compound, group]

/-- No item begins with a star. -/
theorem read_star (rest : List Char) : Item.read ('*' :: rest) = none := rfl

theorem items_ne_nil (asked : selector.required ≠ .empty) : selector.items ≠ [] := by
  intro nothing
  obtain ⟨required, -⟩ := List.append_eq_nil_iff.mp nothing
  obtain ⟨⟨element, classes, attributes⟩, excluded⟩ := selector
  simp only [Compound.items, List.append_eq_nil_iff, List.map_eq_nil_iff,
    Option.toList_eq_nil_iff] at required
  obtain ⟨rfl, rfl, rfl⟩ := required
  exact asked rfl

/-- A draft that is finished as one selector without an implied star holds it. -/
theorem Draft.eq_of_finish {draft : Draft} (finished : draft.finish = .ok [selector])
    (star : selector.required.element ≠ some "*") :
    draft = ⟨[], selector.required, selector.excluded, none⟩ := by
  obtain ⟨complete, required, excluded, _ | group⟩ := draft
  case some => cases finished
  case none =>
    rw [Draft.finish, Draft.complete?] at finished
    dsimp only at finished
    by_cases nothing : required = .empty
    · rw [if_pos nothing] at finished
      by_cases ungrouped : excluded = []
      · rw [if_pos ungrouped] at finished
        cases finished
      · rw [if_neg ungrouped] at finished
        have whole : complete ++ [⟨Compound.empty.withElement "*", excluded⟩] = [] ++ [selector] :=
          Except.ok.inj finished
        obtain ⟨-, rfl⟩ := List.append_singleton_inj.mp whole
        exact absurd rfl star
    · rw [if_neg nothing] at finished
      have whole : complete ++ [⟨required, excluded⟩] = [] ++ [selector] :=
        Except.ok.inj finished
      obtain ⟨rfl, rfl⟩ := List.append_singleton_inj.mp whole
      rfl

theorem Draft.finish_of_asked (asked : selector.required ≠ .empty) :
    Draft.finish ⟨[], selector.required, selector.excluded, none⟩ = .ok [selector] := by
  rw [Draft.finish, Draft.complete?, if_neg asked]
  rfl

/-- What an alternative is printed as is read as that alternative exactly where it can be read
again. -/
theorem parse_print_iff {source : String} {selectors : List Selector}
    (parsed : parse source = .ok selectors) {selector : Selector} (member : selector ∈ selectors) :
    parse selector.print = .ok [selector] ↔ selector.Rereadable := by
  obtain ⟨required, asked, excluded⟩ := written_of_parse parsed selector member
  by_cases star : selector.required.element = some "*"
  · refine iff_of_false (fun reparsed => ?_) fun rereadable => rereadable.element star
    obtain ⟨-, items, draft, scanned, added, finished⟩ := parse_eq_ok_iff_scan.mp reparsed
    obtain ⟨rest, printed⟩ : ∃ rest, selector.print.toList = '*' :: rest :=
      ⟨_, by rw [print, Compound.print, star]; simp; rfl⟩
    obtain ⟨kept, trimmed⟩ := Text.exists_trim_cons (c := '*') rfl rest
    rw [printed, trimmed, Item.scan_of_none (read_star kept)] at scanned
    cases scanned
  · have written := written_items (required star) excluded
    have chain := isChain_items selector
    have added := Draft.addAll_selector (required star) excluded
    obtain ⟨trimmed, text⟩ := trim_texts (items_ne_nil asked) written
    have tiles : Item.Tiles selector.items ↔ selector.Rereadable := by
      rw [Item.tiles_iff written chain, named_items, values_items, rereadable_iff,
        and_iff_right star]
    rw [parse_eq_ok_iff_scan, toList_print, trimmed, and_iff_right text, ← tiles]
    constructor
    · rintro ⟨items, draft, scanned, again, finished⟩
      rw [Draft.eq_of_finish finished star] at again
      exact tiles_of_tiled written chain (tiled_iff.mpr scanned) added again rfl
    · intro tiles
      exact ⟨_, _, tiled_iff.mp tiles.tiled, added, Draft.finish_of_asked asked⟩

theorem parse_print_iff_alternatives : ∃ first second,
    parse "a.On[title='x y'], :not(b)" = .ok [first, second] ∧
      parse first.print = .ok [first] ∧ parse second.print ≠ .ok [second] := by
  have parsed : parse "a.On[title='x y'], :not(b)" =
      .ok [⟨⟨some "a", ["on"], [("title", "x y")]⟩, []⟩,
        ⟨⟨some "*", [], []⟩, [⟨some "b", [], []⟩]⟩] := by
    decide +kernel
  refine ⟨_, _, parsed, ?_, ?_⟩
  · exact (parse_print_iff parsed List.mem_cons_self).mpr (by decide +kernel)
  · intro reread
    have rereadable :=
      (parse_print_iff parsed (List.mem_cons_of_mem _ (List.mem_singleton_self _))).mp reread
    exact absurd rereadable (by decide +kernel)

/-- A bracket in a value is printed without quotes, and ends the value there. -/
theorem bracketed_value_unreadable : ∃ selector, parse "[a='x]y']" = .ok [selector] ∧
    selector.print = "[a=x]y]" ∧ parse selector.print = .error (.unexpected "]") :=
  ⟨⟨⟨none, [], [("a", "x]y")]⟩, []⟩, by decide +kernel⟩

end Selector

end ViewTemplates
