import ViewTemplates.Proofs.Runs
import ViewTemplates.Proofs.Selector.Matching
import ViewTemplates.Proofs.Selector.Parts
import ViewTemplates.Selector.Parser

/-!
Which texts are selectors, and what they are read as. A text is accepted by its items alone: they
tile it, each may stand where it stands, and no alternative is empty. The reader keeps a draft that
says, at each point, what the items so far ask for.
-/

namespace ViewTemplates.Selector

open Text Item

/-! The texts that are accepted. -/

/-- Every dollar sign stands directly behind a backslash. -/
def Item.Escaped (name : String) : Prop :=
  ∀ front back, name.toList = front ++ '$' :: back → front.getLast? = some '\\'

/-- The item may stand behind the items before it. -/
def Item.Allowed (before : List Item) : Item → Prop
  | .openNot | .comma => ¬IsOpen before
  | .closeNot => IsOpen before
  | .attribute name _ => Escaped name
  | .element _ | .hasClass _ | .hasId _ => True

/-- The alternative holds an item or a group. -/
def Item.Filled (part : List Item) : Prop := outside part ≠ [] ∨ groups part ≠ []

/-- The text consists of the items, and they make up a list of alternatives. -/
structure Accepted (source : String) (items : List Item) : Prop where
  text : trim source.toList ≠ []
  tiled : Tiled (trim source.toList) items
  allowed : ∀ before item after, items = before ++ item :: after → item.Allowed before
  ended : ¬IsOpen items
  filled : ∀ part ∈ items.splitOn .comma, Filled part

/-! Attribute names. -/

/-- The character in front of a text marks the dollar sign at its head. -/
theorem marked_cons {escaped : Bool} {c : Char} {rest : List Char}
    (first : c = '$' → escaped = true) :
    (∀ front back, c :: rest = front ++ '$' :: back →
        front.getLast?.elim escaped (· == '\\') = true) ↔
      ∀ front back, rest = front ++ '$' :: back →
        front.getLast?.elim (c == '\\') (· == '\\') = true := by
  have shift (front : List Char) : (c :: front).getLast?.elim escaped (· == '\\') =
      front.getLast?.elim (c == '\\') (· == '\\') := by
    rw [List.getLast?_cons]
    cases front.getLast? <;> rfl
  constructor
  · rintro marked front back rfl
    rw [← shift]
    exact marked (c :: front) back rfl
  · rintro marked front back equal
    cases front with
    | nil => exact first (List.cons.inj equal).1
    | cons d front =>
        obtain ⟨rfl, tail⟩ := List.cons.inj equal
        rw [shift]
        exact marked front back tail

theorem unescape_eq_some {escaped : Bool} {text plain : List Char} :
    unescape escaped text = some plain ↔ plain = text.filter (· != '\\') ∧
      ∀ front back, text = front ++ '$' :: back →
        front.getLast?.elim escaped (· == '\\') = true := by
  induction text generalizing escaped plain with
  | nil =>
      rw [unescape, Option.some.injEq, eq_comm]
      refine (and_iff_left fun front back equal => ?_).symm
      exact absurd equal.symm (List.append_ne_nil_of_right_ne_nil front (List.cons_ne_nil _ _))
  | cons c rest induction =>
      rw [unescape]
      split
      next backslash =>
        subst backslash
        have first : '\\' = '$' → escaped = true := fun same => absurd same (by decide)
        rw [induction, marked_cons first]
        rfl
      next other =>
        split
        next bare =>
          obtain ⟨rfl, rfl⟩ := bare
          refine iff_of_false nofun fun ⟨_, marked⟩ => ?_
          cases marked [] rest rfl
        next marked =>
          have unmarked : (c == '\\') = false := beq_eq_false_iff_ne.mpr other
          have kept : (c :: rest).filter (· != '\\') = c :: rest.filter (· != '\\') :=
            List.filter_cons_of_pos (bne_iff_ne.mpr other)
          rw [marked_cons fun dollar => by simpa [dollar] using marked, unmarked, kept,
            Option.map_eq_some_iff]
          simp only [induction]
          constructor
          · rintro ⟨_, ⟨rfl, behind⟩, rfl⟩
            exact ⟨rfl, behind⟩
          · rintro ⟨rfl, behind⟩
            exact ⟨_, ⟨rfl, behind⟩, rfl⟩

theorem unescape_toList {name : String} {plain : List Char} :
    unescape false name.toList = some plain ↔
      String.ofList plain = plainName name ∧ Escaped name := by
  rw [unescape_eq_some, plainName, ← String.toList_inj, String.toList_ofList, String.toList_ofList]
  refine and_congr_right fun _ => forall₃_congr fun front back _ => ?_
  cases front.getLast? <;> simp

/-! The draft. -/

theorem ofItems_eq_empty {items : List Item}
    (plain : ∀ item ∈ items, item.isBracket = false ∧ item ≠ .comma) :
    Compound.ofItems items = .empty ↔ items = [] := by
  refine ⟨fun nothing => ?_, fun none => none ▸ Compound.ofItems_nil⟩
  have names : items.filterMap elementName? = [] :=
    List.getLast?_eq_none_iff.mp (congrArg Compound.element nothing)
  have classes : items.filterMap className? = [] := congrArg Compound.classes nothing
  have attributes : items.filterMap entry? = [] := congrArg Compound.attributes nothing
  rw [List.filterMap_eq_nil_iff] at names classes attributes
  refine List.eq_nil_iff_forall_not_mem.mpr fun item member => ?_
  match item with
  | .element _ => cases names _ member
  | .hasClass _ => cases classes _ member
  | .hasId _ | .attribute _ _ => cases attributes _ member
  | .openNot | .closeNot => cases (plain _ member).1
  | .comma => exact (plain _ member).2 rfl

/-- The draft holds what the items of the alternative ask for. -/
structure Draft.Stands (draft : Draft) (part : List Item) : Prop where
  required : draft.required = .ofItems (outside part)
  excluded : draft.excluded ++ draft.group.toList = (groups part).map .ofItems
  group : draft.group.isSome = true ↔ IsOpen part
  plain : ∀ item ∈ outside part, item.isBracket = false ∧ item ≠ .comma

namespace Draft.Stands

variable {draft next : Draft} {part : List Item} {item : Item}

theorem empty (complete : List Selector) : Draft.Stands ⟨complete, .empty, [], none⟩ [] :=
  ⟨rfl, rfl, iff_of_false nofun not_isOpen_nil, nofun⟩

theorem modify (stands : draft.Stands part) {f : Compound → Compound}
    (bracket : item.isBracket = false) (comma : item ≠ .comma)
    (asks : ∀ items, f (.ofItems items) = .ofItems (items ++ [item])) :
    (draft.modify f).Stands (part ++ [item]) := by
  rw [Draft.modify]
  split
  next group opened =>
    have isOpen := stands.group.mp (by rw [opened]; rfl)
    obtain ⟨same, front, last, before, after⟩ := concat_of_isOpen isOpen bracket
    have excluded := stands.excluded
    rw [opened, before, List.map_append] at excluded
    obtain ⟨others, current⟩ := List.append_singleton_inj.mp excluded
    refine ⟨by rw [same]; exact stands.required, ?_, ?_, by rw [same]; exact stands.plain⟩
    · rw [after, List.map_append, ← others, List.map_singleton, ← asks]
      rw [current]
      rfl
    · exact iff_of_true rfl ((isOpen_concat bracket).mpr isOpen)
  next none =>
    have closed : ¬IsOpen part := by
      rw [← stands.group, none]
      exact Bool.false_ne_true
    obtain ⟨grown, same⟩ := concat_of_not_isOpen closed bracket
    refine ⟨?_, by rw [same]; exact stands.excluded, ?_, ?_⟩
    · rw [grown, ← asks, ← stands.required]
    · rw [isOpen_concat bracket]
      exact stands.group
    · rw [grown, List.forall_mem_append]
      exact ⟨stands.plain, by simpa using ⟨bracket, comma⟩⟩

theorem openNot (stands : draft.Stands part) (none : draft.group = none) :
    Draft.Stands { draft with group := some .empty } (part ++ [.openNot]) := by
  have excluded := stands.excluded
  rw [none] at excluded
  refine ⟨?_, ?_, iff_of_true rfl (isOpen_concat_openNot part), ?_⟩
  · rw [outside_concat_openNot]
    exact stands.required
  · rw [groups_concat_openNot, List.map_append, ← excluded, Option.toList_none, List.append_nil]
    rfl
  · rw [outside_concat_openNot]
    exact stands.plain

theorem closeNot (stands : draft.Stands part) {group : Compound}
    (opened : draft.group = some group) :
    Draft.Stands { draft with excluded := draft.excluded ++ [group], group := none }
      (part ++ [.closeNot]) := by
  have isOpen := stands.group.mp (by rw [opened]; rfl)
  obtain ⟨same, kept⟩ := concat_closeNot isOpen
  have excluded := stands.excluded
  rw [opened] at excluded
  refine ⟨by rw [same]; exact stands.required, ?_, ?_, by rw [same]; exact stands.plain⟩
  · rw [kept, ← excluded, Option.toList_none, List.append_nil]
    rfl
  · exact iff_of_false nofun (not_isOpen_concat_closeNot part)

/-- An alternative is complete where it holds something. -/
theorem complete? (stands : draft.Stands part) (none : draft.group = none) :
    draft.complete? = .ok next ↔
      Filled part ∧ next = ⟨draft.complete ++ [ofPart part], .empty, [], Option.none⟩ := by
  have excluded := stands.excluded
  rw [none, Option.toList_none, List.append_nil] at excluded
  rw [Draft.complete?, stands.required, excluded, Filled, ofPart]
  simp only [ofItems_eq_empty stands.plain, List.map_eq_nil_iff]
  by_cases nothing : outside part = [] <;> by_cases ungrouped : groups part = [] <;>
    simp [nothing, ungrouped, eq_comm]

end Draft.Stands

/-- The draft is what the items so far make: their alternatives but the last are complete. -/
structure Draft.Follows (draft : Draft) (seen : List Item) (front : List (List Item))
    (last : List Item) : Prop where
  split : seen.splitOn .comma = front ++ [last]
  complete : draft.complete = front.map ofPart
  filled : ∀ part ∈ front, Filled part
  stands : draft.Stands last
  isOpen : IsOpen seen ↔ IsOpen last

namespace Draft.Follows

variable {draft next : Draft} {seen last : List Item} {front : List (List Item)}

theorem empty : Draft.empty.Follows [] [] [] := ⟨rfl, rfl, nofun, .empty [], Iff.rfl⟩

theorem group_eq_none (follows : draft.Follows seen front last) :
    draft.group = none ↔ ¬IsOpen seen := by
  rw [follows.isOpen, ← follows.stands.group, Option.isSome_iff_ne_none, not_not]

/-- An item that is neither a bracket nor a comma goes on with the last alternative. -/
theorem modify (follows : draft.Follows seen front last) {item : Item} {f : Compound → Compound}
    (bracket : item.isBracket = false) (comma : item ≠ .comma)
    (asks : ∀ items, f (.ofItems items) = .ofItems (items ++ [item])) :
    (draft.modify f).Follows (seen ++ [item]) front (last ++ [item]) := by
  refine ⟨splitOn_concat follows.split comma, ?_, follows.filled,
    follows.stands.modify bracket comma asks, ?_⟩
  · rw [← follows.complete, Draft.modify]
    split <;> rfl
  · rw [isOpen_concat bracket, isOpen_concat bracket, follows.isOpen]

theorem openNot (follows : draft.Follows seen front last) (none : draft.group = none) :
    Draft.Follows { draft with group := some .empty } (seen ++ [.openNot]) front
      (last ++ [.openNot]) :=
  ⟨splitOn_concat follows.split nofun, follows.complete, follows.filled,
    follows.stands.openNot none, iff_of_true (isOpen_concat_openNot _) (isOpen_concat_openNot _)⟩

theorem closeNot (follows : draft.Follows seen front last) {group : Compound}
    (opened : draft.group = some group) :
    Draft.Follows { draft with excluded := draft.excluded ++ [group], group := none }
      (seen ++ [.closeNot]) front (last ++ [.closeNot]) :=
  ⟨splitOn_concat follows.split nofun, follows.complete, follows.filled,
    follows.stands.closeNot opened,
    iff_of_false (not_isOpen_concat_closeNot _) (not_isOpen_concat_closeNot _)⟩

/-- A comma completes the last alternative and begins another. -/
theorem comma (follows : draft.Follows seen front last) (none : draft.group = none)
    (filled : Filled last) :
    Draft.Follows ⟨draft.complete ++ [ofPart last], .empty, [], Option.none⟩ (seen ++ [.comma])
      (front ++ [last]) [] := by
  refine ⟨?_, ?_, ?_, .empty _, ?_⟩
  · rw [splitOn_concat_self, follows.split]
  · rw [follows.complete, List.map_append]
    rfl
  · rw [List.forall_mem_append, List.forall_mem_singleton]
    exact ⟨follows.filled, filled⟩
  · rw [isOpen_concat rfl]
    exact iff_of_false (follows.group_eq_none.mp none) not_isOpen_nil

/-- An item that is added may stand where it does, and the draft follows it. -/
theorem of_add (follows : draft.Follows seen front last) {item : Item}
    (added : draft.add item = .ok next) :
    item.Allowed seen ∧ ∃ front last, next.Follows (seen ++ [item]) front last := by
  match item with
  | .element name =>
      cases added
      exact ⟨trivial, _, _, follows.modify rfl nofun fun _ => (Compound.ofItems_element name).symm⟩
  | .hasClass name =>
      cases added
      exact ⟨trivial, _, _, follows.modify rfl nofun fun _ => (Compound.ofItems_hasClass name).symm⟩
  | .hasId value =>
      cases added
      exact ⟨trivial, _, _, follows.modify rfl nofun fun _ => (Compound.ofItems_hasId value).symm⟩
  | .attribute name value =>
      rw [Draft.add] at added
      split at added
      next => cases added
      next plain unescaped =>
        cases added
        obtain ⟨same, escaped⟩ := unescape_toList.mp unescaped
        rw [same]
        exact ⟨escaped, _, _, follows.modify rfl (by rintro ⟨⟩) fun _ =>
          (Compound.ofItems_attribute name value).symm⟩
  | .openNot =>
      rw [Draft.add] at added
      split at added
      next => cases added
      next none =>
        cases added
        exact ⟨follows.group_eq_none.mp none, _, _, follows.openNot none⟩
  | .closeNot =>
      rw [Draft.add] at added
      split at added
      next => cases added
      next group opened =>
        cases added
        have isOpen := follows.isOpen.mpr (follows.stands.group.mp (by rw [opened]; rfl))
        exact ⟨isOpen, _, _, follows.closeNot opened⟩
  | .comma =>
      rw [Draft.add] at added
      split at added
      next => cases added
      next closed =>
        have none : draft.group = none := by simpa using closed
        obtain ⟨filled, rfl⟩ := (follows.stands.complete? none).mp added
        exact ⟨follows.group_eq_none.mp none, _, _, follows.comma none filled⟩

/-- An item that may stand where it does is added. -/
theorem exists_add (follows : draft.Follows seen front last) {item : Item}
    (allowed : item.Allowed seen) (filled : item = .comma → Filled last) :
    ∃ next, draft.add item = .ok next := by
  match item with
  | .element _ | .hasClass _ | .hasId _ => exact ⟨_, rfl⟩
  | .attribute name value =>
      have unescaped := unescape_toList.mpr ⟨String.ofList_toList, allowed⟩
      exact ⟨_, by rw [Draft.add, unescaped]⟩
  | .openNot =>
      have none := follows.group_eq_none.mpr allowed
      exact ⟨_, by rw [Draft.add, none]⟩
  | .closeNot =>
      obtain ⟨group, opened⟩ := Option.isSome_iff_exists.mp
        (follows.stands.group.mpr (follows.isOpen.mp allowed))
      exact ⟨_, by rw [Draft.add, opened]⟩
  | .comma =>
      have none := follows.group_eq_none.mpr allowed
      have completed := (follows.stands.complete? none).mpr ⟨filled rfl, rfl⟩
      exact ⟨_, by rw [Draft.add, none]; exact completed⟩

/-- Where all items are added, each may stand behind those before it. -/
theorem of_addAll (follows : draft.Follows seen front last) {items : List Item}
    (added : draft.addAll items = .ok next) :
    (∀ before item after, items = before ++ item :: after → item.Allowed (seen ++ before)) ∧
      ∃ front last, next.Follows (seen ++ items) front last := by
  induction items generalizing draft seen front last with
  | nil =>
      cases added
      rw [List.append_nil]
      exact ⟨fun before _ _ equal => absurd equal.symm (by simp), _, _, follows⟩
  | cons first rest induction =>
      rw [Draft.addAll] at added
      split at added
      next => cases added
      next middle step =>
        obtain ⟨allowed, _, _, follows⟩ := follows.of_add step
        obtain ⟨later, _, _, ending⟩ := induction follows added
        rw [List.append_assoc] at ending
        refine ⟨fun before item after equal => ?_, _, _, ending⟩
        cases before with
        | nil =>
            cases equal
            rw [List.append_nil]
            exact allowed
        | cons head before =>
            obtain ⟨rfl, tail⟩ := List.cons.inj equal
            have stands := later before item after tail
            rwa [List.append_assoc] at stands

/-- Items that may all stand where they do are added, if no alternative is empty. -/
theorem exists_addAll (follows : draft.Follows seen front last) {items : List Item}
    (allowed : ∀ before item after, items = before ++ item :: after →
      item.Allowed (seen ++ before))
    (filled : ∀ part ∈ (seen ++ items).splitOn .comma, Filled part) :
    ∃ next, draft.addAll items = .ok next := by
  induction items generalizing draft seen front last with
  | nil => exact ⟨draft, rfl⟩
  | cons first rest induction =>
      have fits := allowed [] first rest rfl
      rw [List.append_nil] at fits
      have whole : first = .comma → Filled last := by
        rintro rfl
        apply filled
        rw [List.splitOn_append_cons_self, follows.split]
        simp
      obtain ⟨middle, step⟩ := follows.exists_add fits whole
      obtain ⟨-, _, _, follows⟩ := follows.of_add step
      have appended : seen ++ first :: rest = seen ++ [first] ++ rest := by simp
      obtain ⟨next, steps⟩ := induction follows
        (fun before item after equal => by
          have stands := allowed (first :: before) item after (by rw [equal]; rfl)
          rwa [List.append_assoc])
        (by rwa [← appended])
      exact ⟨next, by rw [Draft.addAll, step]; exact steps⟩

/-- The draft is finished where no group is open and the last alternative holds something. -/
theorem finish (follows : draft.Follows seen front last) {selectors : List Selector} :
    draft.finish = .ok selectors ↔
      ¬IsOpen seen ∧ Filled last ∧ selectors = (seen.splitOn .comma).map ofPart := by
  rw [Draft.finish, follows.split, List.map_append, ← follows.complete]
  split
  next opened =>
    have isOpen := follows.isOpen.mpr (follows.stands.group.mp opened)
    exact iff_of_false (by rintro ⟨⟩) fun finished => finished.1 isOpen
  next closed =>
    have none : draft.group = none := by simpa using closed
    rw [and_iff_right (follows.group_eq_none.mp none)]
    split
    next fault failed =>
      refine iff_of_false (by rintro ⟨⟩) fun finished => ?_
      rw [(follows.stands.complete? none).mpr ⟨finished.1, rfl⟩] at failed
      cases failed
    next done completed =>
      obtain ⟨filled, rfl⟩ := (follows.stands.complete? none).mp completed
      rw [and_iff_right filled, Except.ok.injEq, eq_comm]
      rfl

end Draft.Follows

/-! Reading. -/

theorem parse_eq_ok_iff_scan {source : String} {selectors : List Selector} :
    parse source = .ok selectors ↔ trim source.toList ≠ [] ∧ ∃ items draft,
      Item.scan (trim source.toList) = (items, []) ∧ Draft.empty.addAll items = .ok draft ∧
        draft.finish = .ok selectors := by
  rw [parse]
  split
  next nothing => exact iff_of_false (by rintro ⟨⟩) fun read => read.1 nothing
  next text =>
    rw [and_iff_right text]
    constructor
    · intro parsed
      split at parsed
      next => cases parsed
      next draft added =>
        split at parsed
        next whole => exact ⟨_, draft, Prod.ext rfl whole, added, parsed⟩
        next => cases parsed
    · rintro ⟨items, draft, scanned, added, finished⟩
      rw [scanned, added]
      exact finished

/-- Which texts are read as selectors, and as which. -/
theorem parse_eq_ok {source : String} {selectors : List Selector} :
    parse source = .ok selectors ↔
      ∃ items, Accepted source items ∧ selectors = (items.splitOn .comma).map ofPart := by
  rw [parse_eq_ok_iff_scan]
  constructor
  · rintro ⟨text, items, draft, scanned, added, finished⟩
    obtain ⟨allowed, front, last, follows⟩ := Draft.Follows.empty.of_addAll added
    rw [List.nil_append] at follows
    obtain ⟨ended, filled, rfl⟩ := follows.finish.mp finished
    refine ⟨items, ⟨text, tiled_iff.mpr scanned, allowed, ended, ?_⟩, rfl⟩
    rw [follows.split, List.forall_mem_append, List.forall_mem_singleton]
    exact ⟨follows.filled, filled⟩
  · rintro ⟨items, ⟨text, tiled, allowed, ended, filled⟩, rfl⟩
    obtain ⟨draft, added⟩ := Draft.Follows.empty.exists_addAll allowed filled
    obtain ⟨-, front, last, follows⟩ := Draft.Follows.empty.of_addAll added
    rw [List.nil_append] at follows
    have whole : Filled last := filled last (by rw [follows.split]; simp)
    exact ⟨text, items, draft, tiled_iff.mp tiled, added, follows.finish.mpr ⟨ended, whole, rfl⟩⟩

/-- A text is read exactly where it is accepted. There is then one selector for each alternative,
in their order, and each asks for an element, a class or an attribute. -/
theorem parse_iff_accepted (source : String) :
    ((∃ selectors, parse source = .ok selectors) ↔ ∃ items, Accepted source items) ∧
      ∀ items, Accepted source items →
        parse source = .ok ((items.splitOn .comma).map ofPart) ∧
          ∀ part ∈ items.splitOn .comma, (ofPart part).required.element ≠ none ∨
            (ofPart part).required.classes ≠ [] ∨ (ofPart part).required.attributes ≠ [] := by
  refine ⟨⟨fun ⟨_, parsed⟩ => ?_, fun ⟨items, accepted⟩ => ?_⟩, fun items accepted => ?_⟩
  · obtain ⟨items, accepted, -⟩ := parse_eq_ok.mp parsed
    exact ⟨items, accepted⟩
  · exact ⟨_, parse_eq_ok.mpr ⟨items, accepted, rfl⟩⟩
  · have parsed := parse_eq_ok.mpr ⟨items, accepted, rfl⟩
    refine ⟨parsed, fun part member => ?_⟩
    have asks := (proper_of_parse parsed _ (List.mem_map_of_mem member)).required
    by_contra nothing
    simp only [not_or, not_not] at nothing
    obtain ⟨element, classes, attributes⟩ := nothing
    exact asks (Compound.mk.injEq .. ▸ ⟨element, classes, attributes⟩)

theorem accepted_alternatives : ∃ items, Accepted "li.odd, :not([title])" items ∧
    parse "li.odd, :not([title])" = .ok ((items.splitOn .comma).map ofPart) := by
  have parsed : ∃ selectors, parse "li.odd, :not([title])" = .ok selectors :=
    exists_of_isOk (by decide +kernel)
  obtain ⟨items, accepted⟩ := (parse_iff_accepted _).1.mp parsed
  exact ⟨items, accepted, ((parse_iff_accepted _).2 items accepted).1⟩

end ViewTemplates.Selector
