import Mathlib.Data.List.Forall2
import ViewTemplates.Proofs.Selector.Acceptance

/-!
What a selector text means for an element. Every item that is written says something of the
element; an alternative holds where the items outside its groups hold together and those of no
group do. The one exception is an element name: a later one in the same place overrides it.
-/

namespace ViewTemplates

namespace Selector

open Item

/-! What the items say. -/

/-- What one item says of an element with this name and these attributes. -/
def Item.Holds (name : String) (attributes : Attributes) : Item → Prop
  | .element other => other = name
  | .hasClass wanted => ∃ entry ∈ attributes, Text.sameLetters entry.1 "class" = true ∧
      ∃ word ∈ Text.words entry.2.toList, Text.lowered (String.ofList word) = Text.lowered wanted
  | .hasId value => ∃ entry ∈ attributes, entry.1 = "id" ∧ Text.lowered entry.2 = Text.lowered value
  | .attribute wanted value => ∃ entry ∈ attributes, entry.1 = plainName wanted ∧
      (value = "" ∨ Text.lowered entry.2 = Text.lowered value)
  | .openNot | .closeNot | .comma => True

/-- The items hold together, save an element name behind which another one stands. -/
def Item.Hold (items : List Item) (name : String) (attributes : Attributes) : Prop :=
  ∀ before item after, items = before ++ item :: after →
    (item.elementName?.isSome = true → ∀ other ∈ after, other.elementName? = none) →
      item.Holds name attributes

/-- The items name no element, or one only. -/
def Item.NamesOnce (items : List Item) : Prop :=
  ∀ before item after, items = before ++ item :: after → item.elementName?.isSome = true →
    ∀ other ∈ after, other.elementName? = none

variable {items : List Item} {name : String} {attributes : Attributes}

/-- Where no element name is overridden, the items hold together as each of them holds. -/
theorem Item.hold_iff_of_namesOnce (once : NamesOnce items) :
    Item.Hold items name attributes ↔ ∀ item ∈ items, item.Holds name attributes := by
  constructor
  · intro hold item member
    obtain ⟨before, after, split⟩ := List.append_of_mem member
    exact hold before item after split (once before item after split)
  · rintro all before item after rfl -
    exact all item (List.mem_append_right _ (List.mem_cons_self ..))

/-! Items from text. -/

/-- What reading guarantees of an item: an element name is no star, a class name is one word, and an
id is not empty. -/
def Item.Legible : Item → Prop
  | .element name => name ≠ "*"
  | .hasClass name => name ≠ "" ∧ ∀ c ∈ name.toList, Text.isBlank c = false
  | .hasId value => value ≠ ""
  | _ => True

theorem isBlank_of_isNameChar {c : Char} (plain : isNameChar c = true) :
    Text.isBlank c = false := by
  rw [Bool.eq_false_iff]
  intro blank
  rw [isNameChar_of_isBlank blank] at plain
  cases plain

theorem Item.Begins.legible {source rest : List Char} {item : Item}
    (begins : Item.Begins source item rest) : item.Legible := by
  cases begins with
  | element run =>
      rintro rfl
      cases run.members '*' (List.mem_singleton_self '*')
  | hasClass run =>
      exact ⟨run.nonempty, fun c member => isBlank_of_isNameChar (run.members c member)⟩
  | hasId run => exact run.nonempty
  | openNot | closeNot | named | valued | comma => trivial

theorem Tiled.legible {source : List Char} (tiled : Tiled source items) :
    ∀ item ∈ items, item.Legible := by
  induction tiled with
  | nil => exact nofun
  | cons begins _ induction => exact List.forall_mem_cons.mpr ⟨begins.legible, induction⟩

theorem mem_of_mem_splitOn {α : Type} [DecidableEq α] {separator member : α} {list part : List α}
    (cut : part ∈ list.splitOn separator) (inside : member ∈ part) : member ∈ list := by
  induction list generalizing part with
  | nil =>
      rw [List.splitOn_nil, List.mem_singleton] at cut
      rw [cut] at inside
      cases inside
  | cons first rest induction =>
      obtain ⟨head, more, split⟩ := List.exists_cons_of_ne_nil (List.splitOn_ne_nil separator rest)
      rw [List.splitOn_cons_eq_if_modifyHead, split] at cut
      rw [split] at induction
      split at cut
      next =>
        rcases List.mem_cons.mp cut with rfl | later
        · cases inside
        · exact List.mem_cons_of_mem _ (induction later inside)
      next =>
        rcases List.mem_cons.mp cut with rfl | later
        · rcases List.mem_cons.mp inside with rfl | further
          · exact List.mem_cons_self ..
          · exact List.mem_cons_of_mem _ (induction (List.mem_cons_self ..) further)
        · exact List.mem_cons_of_mem _ (induction (List.mem_cons_of_mem _ later) inside)

theorem Item.mem_of_mem_groups {group : List Item} {item : Item} (cut : group ∈ groups items)
    (inside : item ∈ group) : item ∈ items := by
  obtain ⟨segment, member, rfl⟩ := List.mem_map.mp cut
  exact mem_of_mem_splitOn (List.mem_of_mem_tail member) ((List.takeWhile_sublist _).mem inside)

theorem Item.mem_of_mem_outside {item : Item} (inside : item ∈ outside items) : item ∈ items := by
  obtain ⟨first, more, split⟩ := List.exists_cons_of_ne_nil (List.splitOn_ne_nil .openNot items)
  rw [outside, split] at inside
  rcases List.mem_append.mp inside with head | later
  · exact mem_of_mem_splitOn (by rw [split]; exact List.mem_cons_self ..) head
  · obtain ⟨group, member, behind⟩ := List.mem_flatMap.mp later
    have inGroup := (List.dropWhile_sublist _).mem (List.mem_of_mem_tail behind)
    exact mem_of_mem_splitOn (by rw [split]; exact List.mem_cons_of_mem _ member) inGroup

/-! Alternatives. -/

/-- The name that counts is the last one. -/
theorem getLast?_elementName {wanted : String} :
    (items.filterMap elementName?).getLast? = some wanted ↔ ∃ before after,
      items = before ++ .element wanted :: after ∧ ∀ other ∈ after, other.elementName? = none := by
  have isElement (item : Item) : item.elementName? = some wanted ↔ item = .element wanted := by
    cases item <;> simp [elementName?]
  rw [List.getLast?_eq_some_iff]
  constructor
  · rintro ⟨others, ending⟩
    obtain ⟨before, rest, rfl, -, last⟩ := List.filterMap_eq_append_iff.mp ending
    obtain ⟨plain, item, after, rfl, -, named, none⟩ := List.filterMap_eq_cons_iff.mp last
    rw [(isElement item).mp named]
    exact ⟨before ++ plain, after, (List.append_assoc ..).symm, List.filterMap_eq_nil_iff.mp none⟩
  · rintro ⟨before, after, rfl, none⟩
    refine ⟨before.filterMap elementName?, ?_⟩
    have first : (Item.element wanted :: after).filterMap elementName? =
        wanted :: after.filterMap elementName? := rfl
    rw [List.filterMap_append, first, List.filterMap_eq_nil_iff.mpr none]

/-- A compound describes an element where its items hold together. -/
theorem describes_ofItems (legible : ∀ item ∈ items, item.Legible) :
    (Compound.ofItems items).Describes name attributes ↔ Item.Hold items name attributes := by
  constructor
  · rintro ⟨element, classes, entries⟩ before item after rfl last
    have member : item ∈ before ++ item :: after :=
      List.mem_append_right _ (List.mem_cons_self ..)
    match item with
    | .element other =>
        refine (element other ?_).resolve_left (legible _ member)
        exact getLast?_elementName.mpr ⟨before, after, rfl, last rfl⟩
    | .hasClass wanted => exact classes _ (List.mem_filterMap.mpr ⟨_, member, rfl⟩)
    | .hasId value =>
        obtain ⟨entry, among, named, valued⟩ :=
          entries _ (List.mem_filterMap.mpr ⟨_, member, rfl⟩)
        exact ⟨entry, among, named,
          valued.resolve_left fun nothing => legible _ member (Text.lowered_eq_empty.mp nothing)⟩
    | .attribute wanted value =>
        obtain ⟨entry, among, named, valued⟩ :=
          entries _ (List.mem_filterMap.mpr ⟨_, member, rfl⟩)
        exact ⟨entry, among, named, valued.imp_left Text.lowered_eq_empty.mp⟩
    | .openNot | .closeNot | .comma => trivial
  · intro hold
    have each {item : Item} (member : item ∈ items) (unnamed : item.elementName? = none) :
        item.Holds name attributes := by
      obtain ⟨before, after, split⟩ := List.append_of_mem member
      refine hold before item after split fun named => ?_
      rw [unnamed] at named
      cases named
    refine ⟨fun wanted counts => ?_, fun wanted member => ?_, fun wanted member => ?_⟩
    · obtain ⟨before, after, split, last⟩ := getLast?_elementName.mp counts
      exact .inr (hold before _ after split fun _ => last)
    · obtain ⟨item, inside, asks⟩ := List.mem_filterMap.mp member
      match item with
      | .hasClass _ =>
          cases asks
          exact each inside rfl
    · obtain ⟨item, inside, asks⟩ := List.mem_filterMap.mp member
      match item with
      | .hasId value =>
          cases asks
          obtain ⟨entry, among, named, valued⟩ := each inside rfl
          exact ⟨entry, among, named, .inr valued⟩
      | .attribute _ value =>
          cases asks
          obtain ⟨entry, among, named, valued⟩ := each inside rfl
          exact ⟨entry, among, named, valued.imp_left Text.lowered_eq_empty.mpr⟩

theorem describes_star (name : String) (attributes : Attributes) :
    (Compound.empty.withElement "*").Describes name attributes := by
  refine ⟨?_, nofun, nofun⟩
  rintro wanted ⟨⟩
  exact .inl rfl

/-- An alternative describes an element where the items outside its groups hold together, and those
of no group do. -/
theorem describes_ofPart {part : List Item} (legible : ∀ item ∈ part, item.Legible) :
    (ofPart part).Describes name attributes ↔
      Item.Hold (outside part) name attributes ∧
        ∀ group ∈ groups part, ¬Item.Hold group name attributes := by
  refine and_congr ?_ ?_
  · rw [ofPart]
    split
    next nothing =>
      rw [nothing]
      refine iff_of_true (describes_star name attributes) fun before item after split => ?_
      exact absurd split.symm (List.append_ne_nil_of_right_ne_nil before (List.cons_ne_nil _ _))
    next => exact describes_ofItems fun item inside => legible item (mem_of_mem_outside inside)
  · rw [ofPart, List.forall_mem_map]
    refine forall₂_congr fun group member => not_congr (describes_ofItems fun item inside => ?_)
    exact legible item (mem_of_mem_groups member inside)

/-- What a text asks for. It is a sequence of items, and each selector stands for the items between
two commas: it accepts an element where the items outside the groups hold together, and those of no
group do. Where no element name is overridden, that is each item for itself. -/
theorem accepts_iff_items {source : String} {selectors : List Selector}
    (parsed : parse source = .ok selectors) :
    ∃ items, Tiled (Text.trim source.toList) items ∧
      List.Forall₂
        (fun part selector => ∀ name attributes,
          (selector.accepts (.ofElement name attributes) = true ↔
            Item.Hold (outside part) name attributes ∧
              ∀ group ∈ groups part, ¬Item.Hold group name attributes) ∧
          (NamesOnce (outside part) → (∀ group ∈ groups part, NamesOnce group) →
            (selector.accepts (.ofElement name attributes) = true ↔
              (∀ item ∈ outside part, item.Holds name attributes) ∧
                ∀ group ∈ groups part, ∃ item ∈ group, ¬item.Holds name attributes)))
        (items.splitOn .comma) selectors := by
  obtain ⟨items, accepted, rfl⟩ := parse_eq_ok.mp parsed
  refine ⟨items, accepted.tiled, ?_⟩
  rw [List.forall₂_map_right_iff, List.forall₂_same]
  intro part member name attributes
  have legible (item : Item) (inside : item ∈ part) : item.Legible :=
    accepted.tiled.legible item (mem_of_mem_splitOn member inside)
  have proper := proper_of_parse parsed (ofPart part) (List.mem_map_of_mem member)
  have whole : (ofPart part).accepts (.ofElement name attributes) = true ↔ _ :=
    proper.accepts_iff.trans (describes_ofPart legible)
  refine ⟨whole, fun once groupsOnce => whole.trans ?_⟩
  rw [hold_iff_of_namesOnce once]
  refine and_congr_right fun _ => forall₂_congr fun group among => ?_
  rw [hold_iff_of_namesOnce (groupsOnce group among)]
  simp only [not_forall, exists_prop]

theorem exists_accepts_iff_items : ∃ selectors, parse "li.odd:not(#last), p" = .ok selectors ∧
    ∃ items, Tiled (Text.trim "li.odd:not(#last), p".toList) items ∧
      List.Forall₂
        (fun part selector => ∀ name attributes,
          selector.accepts (.ofElement name attributes) = true ↔
            Item.Hold (outside part) name attributes ∧
              ∀ group ∈ groups part, ¬Item.Hold group name attributes)
        (items.splitOn .comma) selectors := by
  obtain ⟨selectors, parsed⟩ : ∃ selectors, parse "li.odd:not(#last), p" = .ok selectors :=
    exists_of_isOk (by decide +kernel)
  obtain ⟨items, tiled, each⟩ := accepts_iff_items parsed
  exact ⟨selectors, parsed, items, tiled,
    each.imp fun _ _ both name attributes => (both name attributes).1⟩

/-- An element name that is overridden asks for nothing. -/
theorem overridden_name_dropped : ∃ selector, parse "div[a]span" = .ok [selector] ∧
    Tiled "div[a]span".toList [.element "div", .attribute "a" "", .element "span"] ∧
    selector.accepts (.ofElement "span" [("a", "")]) = true ∧
    ¬(Item.element "div").Holds "span" [("a", "")] :=
  ⟨⟨⟨some "span", [], [("a", "")]⟩, []⟩, by decide +kernel, tiled_iff.mpr (by decide +kernel),
    by decide +kernel, fun (same : "div" = "span") => absurd same (by decide)⟩

end Selector

end ViewTemplates
