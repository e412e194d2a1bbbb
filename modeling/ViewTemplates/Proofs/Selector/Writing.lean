import ViewTemplates.Proofs.Selector.Meaning
import ViewTemplates.Proofs.Text.Case
import ViewTemplates.Proofs.Text.Words
import ViewTemplates.Selector.Printer

/-!
A selector as the sequence of items that its text writes: the element name, classes and attributes
that are required, then a group for each excluded compound. A draft to which these items are added
becomes the selector again, and the text is what the items are written as, one behind the other.
-/

namespace ViewTemplates

namespace Selector

open Text

/-! Items of a selector. -/

def Item.text : Item → List Char
  | .element name => name.toList
  | .hasClass name => '.' :: name.toList
  | .hasId value => '#' :: value.toList
  | .attribute name value =>
      '[' :: (name.toList ++ if value = "" then [']'] else '=' :: (value.toList ++ [']']))
  | .openNot => [':', 'n', 'o', 't', '(']
  | .closeNot => [')']
  | .comma => [',']

def Item.texts (items : List Item) : List Char := items.flatMap Item.text

def Item.ofEntry (entry : String × String) : Item :=
  .attribute (String.ofList (escapeDollars entry.1.toList)) entry.2

end Selector

open Selector

def Compound.items (compound : Compound) : List Item :=
  compound.element.toList.map Item.element ++
    (compound.classes.map Item.hasClass ++ compound.attributes.map Item.ofEntry)

/-- A compound between the brackets of a group. -/
def Compound.groupItems (group : Compound) : List Item :=
  .openNot :: (group.items ++ [.closeNot])

def Selector.items (selector : Selector) : List Item :=
  selector.required.items ++ selector.excluded.flatMap Compound.groupItems

theorem Selector.toList_printAttribute (entry : String × String) :
    (printAttribute entry).toList = (Item.ofEntry entry).text := by
  rw [printAttribute, Item.ofEntry, Item.text]
  by_cases nothing : entry.2 = ""
  · simp [nothing, toString]
  · simp [nothing, toString]

theorem Compound.toList_print (compound : Compound) :
    compound.print.toList = Item.texts compound.items := by
  have named : (compound.element.getD "").toList =
      (compound.element.toList.map Item.element).flatMap Item.text := by
    cases compound.element <;> simp [Item.text]
  simp [print, items, Item.texts, named, List.flatMap_map, toList_printAttribute, Item.text]

theorem Selector.toList_print (selector : Selector) :
    selector.print.toList = Item.texts selector.items := by
  simp [print, items, Compound.groupItems, Compound.toList_print, Item.texts, List.flatMap_map,
    List.flatMap_assoc, Item.text]

/-! What is read is written. -/

/-- What reading guarantees of the characters of an item. -/
def Selector.Item.Worded : Item → Prop
  | .element name | .hasClass name | .hasId name =>
      name ≠ "" ∧ ∀ c ∈ name.toList, isNameChar c = true
  | .attribute name _ => ∀ c ∈ name.toList, isAttributeChar c = true
  | .openNot | .closeNot | .comma => True

/-- An item that a selector writes. -/
structure Selector.Item.Written (item : Item) : Prop where
  worded : item.Worded
  other : item ≠ .comma
  low : ∀ name value, item = .attribute name value → Text.lowered value = value

/-- The names of a compound are made of the characters of names, and classes and values are in lower
case. -/
structure Compound.Written (compound : Compound) : Prop where
  element : ∀ name, compound.element = some name → (Item.element name).Worded
  classes : ∀ name ∈ compound.classes, (Item.hasClass name).Worded ∧ Text.lowered name = name
  attributes : ∀ entry ∈ compound.attributes,
    (∀ c ∈ entry.1.toList, isAttributeChar c = true ∧ c ≠ '\\') ∧ Text.lowered entry.2 = entry.2

/-- A selector is made of written compounds, save the star that stands for an omitted one. -/
structure Selector.Written (selector : Selector) : Prop where
  required : selector.required.element ≠ some "*" → selector.required.Written
  asked : selector.required ≠ .empty
  excluded : ∀ group ∈ selector.excluded, group.Written

namespace Selector

variable {source rest : List Char} {item : Item} {items : List Item}

theorem Item.Begins.worded (begins : Item.Begins source item rest) : item.Worded := by
  cases begins with
  | element run | hasClass run | hasId run => exact ⟨run.nonempty, run.members⟩
  | named run | valued run => exact run.members
  | openNot | closeNot | comma => trivial

theorem Tiled.worded (tiled : Tiled source items) : ∀ item ∈ items, item.Worded := by
  induction tiled with
  | nil => exact nofun
  | cons begins _ induction => exact List.forall_mem_cons.mpr ⟨begins.worded, induction⟩

theorem isNameChar_of_mem_lower {text : List Char} (inside : ∀ c ∈ text, isNameChar c = true) :
    ∀ d ∈ Text.lower text, isNameChar d = true := by
  intro d member
  simp only [isNameChar, Bool.or_eq_true, beq_iff_eq] at inside ⊢
  obtain ⟨c, among, lowers⟩ := Text.exists_lowers member
  rcases inside c among with rfl | word
  · exact .inl (lowers.punctuation (.inl (by decide)))
  · exact .inr (lowers.word word)

theorem Item.worded_lowered {name : String} (worded : (Item.hasClass name).Worded) :
    (Item.hasClass (Text.lowered name)).Worded := by
  refine ⟨fun nothing => worded.1 (Text.lowered_eq_empty.mp nothing), ?_⟩
  rw [Text.lowered, String.toList_ofList]
  exact isNameChar_of_mem_lower worded.2

theorem Item.worded_plainName {name value : String} (worded : (Item.attribute name value).Worded) :
    ∀ c ∈ (plainName name).toList, isAttributeChar c = true ∧ c ≠ '\\' := by
  intro c member
  rw [plainName, String.toList_ofList, List.mem_filter, bne_iff_ne] at member
  exact ⟨worded c member.1, member.2⟩

theorem Compound.written_ofItems (worded : ∀ item ∈ items, item.Worded) :
    (Compound.ofItems items).Written := by
  refine ⟨fun name named => ?_, fun name member => ?_, fun entry member => ?_⟩
  · obtain ⟨item, inside, asks⟩ := List.mem_filterMap.mp (List.mem_of_getLast? named)
    cases item with
    | element other =>
        cases asks
        exact worded _ inside
    | _ => cases asks
  · obtain ⟨item, inside, asks⟩ := List.mem_filterMap.mp member
    cases item with
    | hasClass other =>
        cases asks
        exact ⟨Item.worded_lowered (worded _ inside), Text.lowered_idem other⟩
    | _ => cases asks
  · obtain ⟨item, inside, asks⟩ := List.mem_filterMap.mp member
    cases item with
    | hasId value =>
        cases asks
        have plain : ∀ c ∈ "id".toList, isAttributeChar c = true ∧ c ≠ '\\' := by
          rw [show "id".toList = ['i', 'd'] by decide, List.forall_mem_cons,
            List.forall_mem_singleton]
          decide
        exact ⟨plain, Text.lowered_idem value⟩
    | «attribute» name value =>
        cases asks
        exact ⟨Item.worded_plainName (worded _ inside), Text.lowered_idem value⟩
    | _ => cases asks

theorem written_of_parse {source : String} {selectors : List Selector}
    (parsed : parse source = .ok selectors) : ∀ selector ∈ selectors, selector.Written := by
  have proper := proper_of_parse parsed
  obtain ⟨items, accepted, rfl⟩ := parse_eq_ok.mp parsed
  rw [List.forall_mem_map] at proper ⊢
  intro part member
  have worded (item : Item) (inside : item ∈ part) : item.Worded :=
    accepted.tiled.worded item (mem_of_mem_splitOn member inside)
  constructor
  case required =>
    rw [ofPart]
    split
    next => exact fun other => absurd rfl other
    next =>
      exact fun _ => Compound.written_ofItems fun item inside =>
        worded item (Item.mem_of_mem_outside inside)
  case asked => exact (proper part member).required
  case excluded =>
    rw [ofPart, List.forall_mem_map]
    exact fun group among => Compound.written_ofItems fun item inside =>
      worded item (Item.mem_of_mem_groups among inside)

end Selector

/-! Adding the items. -/

/-- All that the two compounds ask for. Where both name an element, the second one counts. -/
def Compound.extend (base more : Compound) : Compound :=
  ⟨more.element.or base.element, base.classes ++ more.classes, base.attributes ++ more.attributes⟩

theorem Compound.foldl_addAttribute (compound : Compound) (attributes : List (String × String)) :
    attributes.foldl (fun base entry => base.addAttribute entry.1 entry.2) compound =
      { compound with
        attributes :=
          compound.attributes ++ attributes.map fun entry => (entry.1, Text.lowered entry.2) } := by
  induction attributes generalizing compound with
  | nil => rw [List.foldl_nil, List.map_nil, List.append_nil]
  | cons entry rest induction =>
      rw [List.foldl_cons, induction, addAttribute, List.map_cons, List.append_assoc]
      rfl

theorem Compound.empty_extend (compound : Compound) :
    Compound.empty.extend compound = compound := by
  simp [extend, empty]

namespace Selector

theorem unescape_escapeDollars {escaped : Bool} {name : List Char} (plain : '\\' ∉ name) :
    unescape escaped (escapeDollars name) = some name := by
  induction name generalizing escaped with
  | nil => rfl
  | cons c rest induction =>
      rw [List.mem_cons, not_or] at plain
      obtain ⟨other, behind⟩ := plain
      by_cases dollar : c = '$'
      · subst dollar
        simp [escapeDollars, unescape, induction behind]
      · simp [escapeDollars, unescape, induction behind, dollar, Ne.symm other]

namespace Draft

variable {draft middle : Draft} {front : List Item}

theorem addAll_append (added : draft.addAll front = .ok middle) (back : List Item) :
    draft.addAll (front ++ back) = middle.addAll back := by
  induction front generalizing draft with
  | nil =>
      cases added
      rfl
  | cons item rest induction =>
      rw [List.cons_append, addAll]
      rw [addAll] at added
      split at added
      next => cases added
      next => exact induction added

theorem modify_modify (f g : Compound → Compound) :
    (draft.modify f).modify g = draft.modify (g ∘ f) := by
  obtain ⟨complete, required, excluded, _ | group⟩ := draft <;> rfl

theorem modify_id : draft.modify id = draft := by
  obtain ⟨complete, required, excluded, _ | group⟩ := draft <;> rfl

/-- Items that each say one thing of the current compound say all of it together. -/
theorem addAll_map {α : Type} {item : α → Item} (say : α → Compound → Compound) {all : List α}
    (step : ∀ one ∈ all, ∀ draft : Draft, draft.add (item one) = .ok (draft.modify (say one))) :
    draft.addAll (all.map item) =
      .ok (draft.modify fun base => all.foldl (fun base one => say one base) base) := by
  induction all generalizing draft with
  | nil => exact congrArg Except.ok modify_id.symm
  | cons one rest induction =>
      obtain ⟨first, others⟩ := List.forall_mem_cons.mp step
      rw [List.map_cons, addAll, first]
      exact (induction others).trans (congrArg Except.ok (modify_modify _ _))

theorem add_ofEntry {entry : String × String} (plain : '\\' ∉ entry.1.toList) :
    draft.add (Item.ofEntry entry) = .ok (draft.modify (·.addAttribute entry.1 entry.2)) := by
  have name : unescape false (String.ofList (escapeDollars entry.1.toList)).toList =
      some entry.1.toList := by
    rw [String.toList_ofList]
    exact unescape_escapeDollars plain
  rw [Item.ofEntry, add, name]
  simp only [String.ofList_toList]

variable {compound : Compound}

theorem addAll_items (written : compound.Written) :
    draft.addAll compound.items = .ok (draft.modify (·.extend compound)) := by
  obtain ⟨element, classes, attributes⟩ := compound
  have named : draft.addAll (element.toList.map Item.element) =
      .ok (draft.modify fun base => { base with element := element.or base.element }) := by
    cases element with
    | none => exact congrArg Except.ok modify_id.symm
    | some name => rfl
  have classed (draft : Draft) : draft.addAll (classes.map Item.hasClass) =
      .ok (draft.modify fun base => { base with classes := base.classes ++ classes }) := by
    have low : classes.map Text.lowered = classes := by
      conv => rhs; rw [← List.map_id classes]
      exact List.map_congr_left fun name member => (written.classes name member).2
    rw [addAll_map (fun name base => base.addClass name) fun _ _ _ => rfl]
    simp only [Compound.foldl_addClass, low]
  have valued (draft : Draft) : draft.addAll (attributes.map Item.ofEntry) =
      .ok (draft.modify fun base => { base with attributes := base.attributes ++ attributes }) := by
    have low : (attributes.map fun entry => (entry.1, Text.lowered entry.2)) = attributes := by
      conv => rhs; rw [← List.map_id attributes]
      exact List.map_congr_left fun entry member =>
        Prod.ext rfl (written.attributes entry member).2
    rw [addAll_map (fun entry base => base.addAttribute entry.1 entry.2)
      fun entry member _ => add_ofEntry fun slash =>
        ((written.attributes entry member).1 _ slash).2 rfl]
    simp only [Compound.foldl_addAttribute, low]
  rw [Compound.items, addAll_append named, addAll_append (classed _), valued, modify_modify,
    modify_modify]
  rfl

theorem addAll_groups {excluded : List Compound} (written : ∀ group ∈ excluded, group.Written)
    (closed : draft.group = none) :
    draft.addAll (excluded.flatMap Compound.groupItems) =
      .ok { draft with excluded := draft.excluded ++ excluded } := by
  induction excluded generalizing draft with
  | nil =>
      rw [List.append_nil]
      rfl
  | cons group rest induction =>
      obtain ⟨first, others⟩ := List.forall_mem_cons.mp written
      obtain ⟨complete, required, excluded, current⟩ := draft
      obtain rfl : current = none := closed
      have grouped : Draft.addAll ⟨complete, required, excluded, none⟩ group.groupItems =
          .ok ⟨complete, required, excluded ++ [group], none⟩ := by
        have inside : Draft.addAll ⟨complete, required, excluded, some .empty⟩ group.items =
            .ok ⟨complete, required, excluded, some (Compound.empty.extend group)⟩ :=
          addAll_items first
        rw [Compound.empty_extend] at inside
        rw [Compound.groupItems, addAll]
        exact addAll_append inside [.closeNot]
      rw [List.flatMap_cons, addAll_append grouped, induction others rfl, List.append_assoc]
      rfl

/-- The draft of the items is the selector that they were made of. -/
theorem addAll_selector {selector : Selector} (required : selector.required.Written)
    (excluded : ∀ group ∈ selector.excluded, group.Written) :
    Draft.empty.addAll selector.items = .ok ⟨[], selector.required, selector.excluded, none⟩ := by
  have outer : Draft.empty.addAll selector.required.items =
      .ok ⟨[], Compound.empty.extend selector.required, [], none⟩ := addAll_items required
  rw [Compound.empty_extend] at outer
  rw [Selector.items, addAll_append outer]
  exact addAll_groups excluded rfl

end Draft

end Selector

/-! The written text. -/

namespace Selector

/-- An element name stands at the left end, or directly behind the bracket that opens a group. -/
def Item.Separate (left right : Item) : Prop := right.elementName? = none ∨ left = .openNot

theorem mem_escapeDollars {c : Char} {name : List Char} (member : c ∈ escapeDollars name) :
    c = '\\' ∨ c ∈ name := by
  induction name with
  | nil => cases member
  | cons d rest induction =>
      rw [escapeDollars] at member
      split at member
      next => simp only [List.mem_cons] at member ⊢; tauto
      next => simp only [List.mem_cons] at member ⊢; tauto

theorem escapeDollars_eq_nil {name : List Char} : escapeDollars name = [] ↔ name = [] := by
  cases name with
  | nil => rfl
  | cons c rest =>
      rw [escapeDollars]
      split <;> exact iff_of_false (List.cons_ne_nil _ _) (List.cons_ne_nil _ _)

theorem Item.isChain_append {front rest : List Item}
    (nameless : ∀ item ∈ front, item.elementName? = none) (chain : rest.IsChain Item.Separate)
    (ends : ∀ item ∈ rest.head?, item.elementName? = none) :
    (front ++ rest).IsChain Item.Separate ∧
      ∀ item ∈ (front ++ rest).head?, item.elementName? = none := by
  induction front with
  | nil => exact ⟨chain, ends⟩
  | cons first others induction =>
      obtain ⟨here, later⟩ := List.forall_mem_cons.mp nameless
      obtain ⟨behind, next⟩ := induction later
      refine ⟨List.isChain_cons.mpr ⟨fun item head => .inl (next item head), behind⟩, ?_⟩
      rintro _ ⟨⟩
      exact here

end Selector

namespace Compound

variable {compound : Compound} {rest : List Item}

theorem Written.items (written : compound.Written) : ∀ item ∈ compound.items, item.Written := by
  simp only [Compound.items, List.forall_mem_append, List.forall_mem_map, Option.mem_toList]
  refine ⟨fun name named => ⟨written.element name named, nofun, nofun⟩,
    fun name member => ⟨(written.classes name member).1, nofun, nofun⟩,
    fun entry member => ⟨fun c inside => ?_, by rintro ⟨⟩, ?_⟩⟩
  · rw [String.toList_ofList] at inside
    rcases mem_escapeDollars inside with rfl | plain
    · rfl
    · exact ((written.attributes entry member).1 c plain).1
  · rintro _ _ ⟨⟩
    exact (written.attributes entry member).2

/-- Behind the left end, a compound names no element. -/
theorem isChain_items (compound : Compound) (chain : rest.IsChain Item.Separate)
    (ends : ∀ item ∈ rest.head?, item.elementName? = none) :
    (compound.items ++ rest).IsChain Item.Separate := by
  have nameless : ∀ item ∈ compound.classes.map Item.hasClass ++
      compound.attributes.map Item.ofEntry, item.elementName? = none := by
    rw [List.forall_mem_append, List.forall_mem_map, List.forall_mem_map]
    exact ⟨fun _ _ => rfl, fun _ _ => rfl⟩
  obtain ⟨behind, first⟩ := Item.isChain_append nameless chain ends
  rw [items, List.append_assoc]
  cases compound.element with
  | none => exact behind
  | some name => exact List.isChain_cons.mpr ⟨fun item head => .inl (first item head), behind⟩

theorem isChain_groups (excluded : List Compound) :
    (excluded.flatMap groupItems).IsChain Item.Separate ∧
      ∀ item ∈ (excluded.flatMap groupItems).head?, item.elementName? = none := by
  induction excluded with
  | nil => exact ⟨.nil, nofun⟩
  | cons group rest induction =>
      obtain ⟨chain, ends⟩ := induction
      have closing : (.closeNot :: rest.flatMap groupItems).IsChain Item.Separate :=
        List.isChain_cons.mpr ⟨fun item head => .inl (ends item head), chain⟩
      have plain : ∀ item ∈ (Item.closeNot :: rest.flatMap groupItems).head?,
          item.elementName? = none := by
        rintro _ ⟨⟩
        rfl
      have inner := isChain_items group closing plain
      rw [List.flatMap_cons, groupItems, List.cons_append, List.append_assoc]
      refine ⟨List.isChain_cons.mpr ⟨fun _ _ => .inr rfl, inner⟩, ?_⟩
      rintro _ ⟨⟩
      rfl

end Compound

namespace Selector

variable {selector : Selector}

theorem isChain_items (selector : Selector) : selector.items.IsChain Item.Separate :=
  have ⟨chain, ends⟩ := Compound.isChain_groups selector.excluded
  Compound.isChain_items selector.required chain ends

theorem written_items (required : selector.required.Written)
    (excluded : ∀ group ∈ selector.excluded, group.Written) :
    ∀ item ∈ selector.items, item.Written := by
  simp only [items, Compound.groupItems, List.forall_mem_append, List.forall_mem_flatMap,
    List.forall_mem_cons]
  exact ⟨required.items, fun group member => ⟨⟨trivial, nofun, nofun⟩,
    (excluded group member).items, ⟨trivial, nofun, nofun⟩, nofun⟩⟩

/-- Neither end of an item is blank. -/
theorem Item.Written.text_ends {item : Item} (written : item.Written) :
    item.text ≠ [] ∧ (∀ c ∈ item.text.head?, Text.isBlank c = false) ∧
      ∀ c ∈ item.text.getLast?, Text.isBlank c = false := by
  have bare {text : List Char} (nonempty : text ≠ []) (plain : ∀ c ∈ text, Text.isBlank c = false) :
      text ≠ [] ∧ (∀ c ∈ text.head?, Text.isBlank c = false) ∧
        ∀ c ∈ text.getLast?, Text.isBlank c = false :=
    ⟨nonempty, fun c head => plain c (List.mem_of_mem_head? head),
      fun c last => plain c (List.mem_of_getLast? last)⟩
  have named {name : String} (inside : ∀ c ∈ name.toList, isNameChar c = true) (c : Char)
      (member : c ∈ name.toList) : Text.isBlank c = false :=
    isBlank_of_isNameChar (inside c member)
  obtain ⟨worded, other, -⟩ := written
  cases item with
  | element name =>
      exact bare (fun nothing => worded.1 (String.toList_eq_nil_iff.mp nothing)) (named worded.2)
  | hasClass name | hasId name =>
      refine bare (List.cons_ne_nil _ _) (List.forall_mem_cons.mpr ⟨by decide, named worded.2⟩)
  | «attribute» name value =>
      have ending : ∃ front, (Item.attribute name value).text = front ++ [']'] := by
        rw [Item.text]
        split
        · exact ⟨'[' :: name.toList, rfl⟩
        · exact ⟨'[' :: (name.toList ++ '=' :: value.toList), by simp⟩
      obtain ⟨front, ends⟩ := ending
      refine ⟨List.cons_ne_nil _ _, by rintro _ ⟨⟩; decide, ?_⟩
      rw [ends, List.getLast?_concat]
      rintro _ ⟨⟩
      decide
  | openNot | closeNot =>
      refine bare (List.cons_ne_nil _ _) ?_
      simp [Item.text, Text.isBlank]
  | comma => exact absurd rfl other

theorem trim_texts {items : List Item} (some : items ≠ [])
    (written : ∀ item ∈ items, item.Written) :
    Text.trim (Item.texts items) = Item.texts items ∧ Item.texts items ≠ [] := by
  constructor
  · apply Text.trim_eq_self
    · obtain ⟨first, rest, rfl⟩ := List.exists_cons_of_ne_nil some
      obtain ⟨nonempty, begins, -⟩ := (written first List.mem_cons_self).text_ends
      rwa [Item.texts, List.flatMap_cons, List.head?_append_of_ne_nil _ nonempty]
    · obtain ⟨front, last, rfl⟩ : ∃ front last, items = front ++ [last] :=
        ⟨_, _, (List.dropLast_concat_getLast some).symm⟩
      obtain ⟨nonempty, -, ends⟩ :=
        (written last (List.mem_append_right _ (List.mem_singleton_self _))).text_ends
      rwa [Item.texts, List.flatMap_append, List.flatMap_singleton,
        List.getLast?_append_of_ne_nil _ nonempty]
  · obtain ⟨first, rest, rfl⟩ := List.exists_cons_of_ne_nil some
    exact List.append_ne_nil_of_left_ne_nil (written first List.mem_cons_self).text_ends.1 _

end Selector

end ViewTemplates
