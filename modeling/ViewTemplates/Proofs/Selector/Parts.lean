import Mathlib.Data.List.Induction
import ViewTemplates.Proofs.Selector.Tiling
import ViewTemplates.Selector.Basic

/-!
A sequence of items, cut where the commas stand into alternatives, and an alternative cut into its
`:not` groups and what stands outside them. What a part asks for is read off its items as a whole;
one more item changes it in one place.
-/

namespace ViewTemplates

namespace Selector

/-! Lists cut at a separator. -/

section Split

variable {α : Type} [DecidableEq α] {separator added : α} {list last : List α}
  {front : List (List α)}

theorem exists_splitOn (separator : α) (list : List α) :
    ∃ front last, list.splitOn separator = front ++ [last] :=
  ⟨_, _, (List.dropLast_concat_getLast (List.splitOn_ne_nil separator list)).symm⟩

theorem splitOn_concat_self (separator : α) (list : List α) :
    (list ++ [separator]).splitOn separator = list.splitOn separator ++ [[]] := by
  rw [List.splitOn_append_cons_self, List.splitOn_nil]

theorem splitOn_concat (split : list.splitOn separator = front ++ [last])
    (other : added ≠ separator) :
    (list ++ [added]).splitOn separator = front ++ [last ++ [added]] := by
  induction list generalizing front last with
  | nil =>
      have nothing : [] ++ [[]] = front ++ [last] := split
      obtain ⟨rfl, rfl⟩ := List.append_singleton_inj.mp nothing
      rw [List.nil_append, List.nil_append, List.splitOn_eq_singleton]
      rw [List.mem_singleton]
      exact other.symm
  | cons first rest induction =>
      obtain ⟨more, ending, inner⟩ := exists_splitOn separator rest
      rw [List.splitOn_cons_eq_if_modifyHead, inner] at split
      rw [List.cons_append, List.splitOn_cons_eq_if_modifyHead, induction inner]
      split at split
      next same =>
        have longer : ([] :: more) ++ [ending] = front ++ [last] := split
        obtain ⟨rfl, rfl⟩ := List.append_singleton_inj.mp longer
        rw [if_pos same]
        rfl
      next different =>
        rw [if_neg different]
        cases more with
        | nil =>
            have only : [] ++ [first :: ending] = front ++ [last] := split
            obtain ⟨rfl, rfl⟩ := List.append_singleton_inj.mp only
            rfl
        | cons head tail =>
            have longer : ((first :: head) :: tail) ++ [ending] = front ++ [last] := split
            obtain ⟨rfl, rfl⟩ := List.append_singleton_inj.mp longer
            rfl

end Split

namespace Item

/-! Groups, and what stands outside them. -/

def isBracket (item : Item) : Bool := item == .openNot || item == .closeNot

/-- The last bracket among the items opens a group. -/
def IsOpen (items : List Item) : Prop := (items.filter isBracket).getLast? = some .openNot

instance (items : List Item) : Decidable (IsOpen items) := inferInstanceAs (Decidable (_ = _))

/-- The items inside each `:not` group. -/
def groups (items : List Item) : List (List Item) :=
  (items.splitOn .openNot).tail.map fun group => group.takeWhile (· != .closeNot)

/-- The items before the first `:not` group and behind each of the groups. -/
def outside (items : List Item) : List Item :=
  (items.splitOn .openNot).headD [] ++
    (items.splitOn .openNot).tail.flatMap fun group => (group.dropWhile (· != .closeNot)).tail

variable {items last : List Item} {item : Item} {front : List (List Item)}

theorem not_isOpen_nil : ¬IsOpen [] := nofun

theorem isOpen_concat_openNot (items : List Item) : IsOpen (items ++ [.openNot]) := by
  rw [IsOpen, List.filter_append]
  exact List.getLast?_concat

theorem not_isOpen_concat_closeNot (items : List Item) : ¬IsOpen (items ++ [.closeNot]) := by
  rw [IsOpen, List.filter_append]
  intro closed
  have ending : (items.filter isBracket ++ [Item.closeNot]).getLast? = some .openNot := closed
  rw [List.getLast?_concat] at ending
  cases ending

theorem isOpen_concat (plain : item.isBracket = false) :
    IsOpen (items ++ [item]) ↔ IsOpen items := by
  rw [IsOpen, List.filter_append, List.filter_cons_of_neg (by rw [plain]; decide), List.filter_nil,
    List.append_nil, IsOpen]

theorem isOpen_iff (split : items.splitOn .openNot = front ++ [last]) :
    IsOpen items ↔ front ≠ [] ∧ .closeNot ∉ last := by
  induction items using List.reverseRecOn generalizing front last with
  | nil =>
      have nothing : [] ++ [[]] = front ++ [last] := split
      obtain ⟨rfl, -⟩ := List.append_singleton_inj.mp nothing
      exact iff_of_false not_isOpen_nil fun ⟨nonempty, _⟩ => nonempty rfl
  | append_singleton items item induction =>
      obtain ⟨before, ending, inner⟩ := exists_splitOn .openNot items
      by_cases opens : item = .openNot
      · subst opens
        rw [splitOn_concat_self] at split
        obtain ⟨rfl, rfl⟩ := List.append_singleton_inj.mp split
        exact iff_of_true (isOpen_concat_openNot items)
          ⟨List.splitOn_ne_nil _ _, List.not_mem_nil⟩
      · rw [splitOn_concat inner opens] at split
        obtain ⟨rfl, rfl⟩ := List.append_singleton_inj.mp split
        rw [List.mem_append, List.mem_singleton, not_or]
        by_cases closes : item = .closeNot
        · subst closes
          exact iff_of_false (not_isOpen_concat_closeNot items) fun ⟨_, _, other⟩ => other rfl
        · have plain : item.isBracket = false := by simp [isBracket, opens, closes]
          rw [isOpen_concat plain, induction inner, and_congr_right_iff]
          exact fun _ => (and_iff_left (Ne.symm closes)).symm

theorem groups_concat_openNot (items : List Item) :
    groups (items ++ [.openNot]) = groups items ++ [[]] := by
  rw [groups, splitOn_concat_self, List.tail_append_of_ne_nil (List.splitOn_ne_nil _ _),
    List.map_append]
  rfl

theorem outside_concat_openNot (items : List Item) :
    outside (items ++ [.openNot]) = outside items := by
  obtain ⟨first, more, cut⟩ := List.exists_cons_of_ne_nil (List.splitOn_ne_nil .openNot items)
  simp [outside, splitOn_concat_self, cut]

/-- In an open sequence the last group has no end yet. -/
theorem split_of_isOpen (opened : IsOpen items) :
    ∃ first more last, items.splitOn .openNot = first :: more ++ [last] ∧ .closeNot ∉ last := by
  obtain ⟨front, last, split⟩ := exists_splitOn .openNot items
  obtain ⟨nonempty, free⟩ := (isOpen_iff split).mp opened
  obtain ⟨first, more, rfl⟩ := List.exists_cons_of_ne_nil nonempty
  exact ⟨first, more, last, split, free⟩

theorem groups_of_split {first : List Item} {more : List (List Item)}
    (split : items.splitOn .openNot = first :: more ++ [last]) :
    groups items =
      more.map (·.takeWhile (· != .closeNot)) ++ [last.takeWhile (· != .closeNot)] := by
  rw [groups, split, List.cons_append, List.tail_cons, List.map_append]
  rfl

theorem outside_of_split {first : List Item} {more : List (List Item)}
    (split : items.splitOn .openNot = first :: more ++ [last]) :
    outside items =
      first ++ more.flatMap (fun group => (group.dropWhile (· != .closeNot)).tail) ++
        (last.dropWhile (· != .closeNot)).tail := by
  rw [outside, split, List.cons_append, List.tail_cons, List.flatMap_append, List.append_assoc]
  simp

theorem cut_of_notMem (free : .closeNot ∉ items) :
    items.takeWhile (· != .closeNot) = items ∧ items.dropWhile (· != .closeNot) = [] :=
  Text.span_iff.mpr ⟨(List.append_nil items).symm, Text.ne_of_notMem free, nofun⟩

theorem cut_closeNot (free : .closeNot ∉ items) (behind : List Item) :
    (items ++ .closeNot :: behind).takeWhile (· != .closeNot) = items ∧
      (items ++ .closeNot :: behind).dropWhile (· != .closeNot) = .closeNot :: behind :=
  Text.takeWhile_run (Text.ne_of_notMem free) .closeNot rfl behind

/-- An item in an open sequence comes to the last group. -/
theorem concat_of_isOpen (opened : IsOpen items) (plain : item.isBracket = false) :
    outside (items ++ [item]) = outside items ∧
      ∃ front last, groups items = front ++ [last] ∧
        groups (items ++ [item]) = front ++ [last ++ [item]] := by
  obtain ⟨first, more, last, split, free⟩ := split_of_isOpen opened
  have other : item ≠ .openNot ∧ item ≠ .closeNot := by simpa [isBracket] using plain
  have grown := splitOn_concat split other.1
  have stays : .closeNot ∉ last ++ [item] := by
    rw [List.mem_append, List.mem_singleton, not_or]
    exact ⟨free, Ne.symm other.2⟩
  obtain ⟨taken, dropped⟩ := cut_of_notMem free
  obtain ⟨takenAfter, droppedAfter⟩ := cut_of_notMem stays
  refine ⟨?_, more.map (·.takeWhile (· != .closeNot)), last, ?_, ?_⟩
  · rw [outside_of_split grown, outside_of_split split, dropped, droppedAfter]
  · rw [groups_of_split split, taken]
  · rw [groups_of_split grown, takenAfter]

/-- The bracket that closes an open group changes neither the groups nor what is outside. -/
theorem concat_closeNot (opened : IsOpen items) :
    outside (items ++ [.closeNot]) = outside items ∧
      groups (items ++ [.closeNot]) = groups items := by
  obtain ⟨first, more, last, split, free⟩ := split_of_isOpen opened
  have other : closeNot ≠ openNot := by decide
  have grown := splitOn_concat split other
  obtain ⟨taken, dropped⟩ := cut_of_notMem free
  obtain ⟨takenAfter, droppedAfter⟩ := cut_closeNot free []
  constructor
  · rw [outside_of_split grown, outside_of_split split, dropped, droppedAfter]
    rfl
  · rw [groups_of_split grown, groups_of_split split, taken, takenAfter]

/-- An item where no group is open stands outside. -/
theorem concat_of_not_isOpen (closed : ¬IsOpen items) (plain : item.isBracket = false) :
    outside (items ++ [item]) = outside items ++ [item] ∧
      groups (items ++ [item]) = groups items := by
  have other : item ≠ .openNot ∧ item ≠ .closeNot := by simpa [isBracket] using plain
  obtain ⟨front, last, split⟩ := exists_splitOn .openNot items
  have grown := splitOn_concat split other.1
  cases front with
  | nil => simp [outside, groups, split, grown]
  | cons first more =>
      rw [isOpen_iff split, not_and, not_not] at closed
      obtain ⟨group, behind, rfl, free⟩ :=
        List.eq_append_cons_of_mem (closed (List.cons_ne_nil _ _))
      obtain ⟨taken, dropped⟩ := cut_closeNot free behind
      obtain ⟨takenAfter, droppedAfter⟩ := cut_closeNot free (behind ++ [item])
      have longer : group ++ closeNot :: behind ++ [item] =
          group ++ closeNot :: (behind ++ [item]) := List.append_assoc ..
      rw [longer] at grown
      constructor
      · rw [outside_of_split grown, outside_of_split split, dropped, droppedAfter]
        simp only [List.tail_cons, List.append_assoc]
      · rw [groups_of_split grown, groups_of_split split, taken, takenAfter]

/-! What items ask for. -/

/-- The attribute name that is meant: the backslashes only mark what stands behind them. -/
def plainName (name : String) : String := String.ofList (name.toList.filter (· != '\\'))

def elementName? : Item → Option String
  | .element name => some name
  | _ => none

def className? : Item → Option String
  | .hasClass name => some (Text.lowered name)
  | _ => none

def entry? : Item → Option (String × String)
  | .hasId value => some ("id", Text.lowered value)
  | .attribute name value => some (plainName name, Text.lowered value)
  | _ => none

end Item

end Selector

/-- All that the items ask for together. Where they name several elements, the last one counts. -/
def Compound.ofItems (items : List Selector.Item) : Compound where
  element := (items.filterMap Selector.Item.elementName?).getLast?
  classes := items.filterMap Selector.Item.className?
  attributes := items.filterMap Selector.Item.entry?

/-- What an alternative requires and excludes. Where it only excludes, it requires any element. -/
def Selector.ofPart (part : List Selector.Item) : Selector where
  required :=
    if Selector.Item.outside part = [] then Compound.empty.withElement "*"
    else .ofItems (Selector.Item.outside part)
  excluded := (Selector.Item.groups part).map .ofItems

namespace Compound

open Selector.Item

variable {items : List Selector.Item}

theorem ofItems_nil : ofItems [] = empty := rfl

theorem ofItems_element (name : String) :
    ofItems (items ++ [.element name]) = (ofItems items).withElement name := by
  simp [ofItems, withElement, elementName?, className?, entry?]

theorem ofItems_hasClass (name : String) :
    ofItems (items ++ [.hasClass name]) = (ofItems items).addClass name := by
  simp [ofItems, addClass, elementName?, className?, entry?]

theorem ofItems_hasId (value : String) :
    ofItems (items ++ [.hasId value]) = (ofItems items).addAttribute "id" value := by
  simp [ofItems, addAttribute, elementName?, className?, entry?]

theorem ofItems_attribute (name value : String) :
    ofItems (items ++ [.attribute name value]) =
      (ofItems items).addAttribute (plainName name) value := by
  simp [ofItems, addAttribute, elementName?, className?, entry?]

end Compound

end ViewTemplates
