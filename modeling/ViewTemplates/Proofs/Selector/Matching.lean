import ViewTemplates.Proofs.Selector.Lowering
import ViewTemplates.Selector.Matching
import ViewTemplates.Selector.Parser

/-!
When a selector accepts an element, said of the element's name and attributes. The selectors that
come from text ask for something that the index can find, and for values in lower case.
-/

namespace ViewTemplates

/-- The element has the name, the classes and the attributes that the compound asks for. -/
structure Compound.Describes (pattern : Compound) (name : String) (attributes : Attributes) :
    Prop where
  element : ∀ wanted, pattern.element = some wanted → wanted = "*" ∨ wanted = name
  classes : ∀ wanted ∈ pattern.classes, ∃ entry ∈ attributes,
    Text.sameLetters entry.1 "class" = true ∧
      ∃ word ∈ Text.words entry.2.toList, Text.lowered (String.ofList word) = wanted
  attributes : ∀ wanted ∈ pattern.attributes, ∃ entry ∈ attributes,
    entry.1 = wanted.1 ∧ (wanted.2 = "" ∨ Text.lowered entry.2 = wanted.2)

/-- The element has what is required, and not all of any excluded compound. -/
def Selector.Describes (selector : Selector) (name : String) (attributes : Attributes) : Prop :=
  selector.required.Describes name attributes ∧
    ∀ group ∈ selector.excluded, ¬group.Describes name attributes

/-! What an element has. -/

namespace Compound

theorem foldl_addClass (compound : Compound) (names : List String) :
    names.foldl addClass compound =
      { compound with classes := compound.classes ++ names.map Text.lowered } := by
  induction names generalizing compound with
  | nil => rw [List.foldl_nil, List.map_nil, List.append_nil]
  | cons name rest induction =>
      rw [List.foldl_cons, induction, addClass, List.map_cons, List.append_assoc]
      rfl

theorem ofElement_eq (name : String) (attributes : Attributes) :
    ofElement name attributes =
      ⟨some name, (attributes.flatMap classesOf).map Text.lowered,
        attributes.map fun entry => (entry.1, Text.lowered entry.2)⟩ := by
  suffices from_ : ∀ compound : Compound,
      attributes.foldl
          (fun compound entry =>
            (classesOf entry).foldl addClass (compound.addAttribute entry.1 entry.2)) compound =
        ⟨compound.element, compound.classes ++ (attributes.flatMap classesOf).map Text.lowered,
          compound.attributes ++ attributes.map fun entry => (entry.1, Text.lowered entry.2)⟩ from
    from_ _
  induction attributes with
  | nil => simp
  | cons entry rest induction =>
      intro compound
      rw [List.foldl_cons, induction, foldl_addClass]
      simp [addAttribute]

variable {name : String} {attributes : Attributes}

theorem mem_classes_ofElement {wanted : String} :
    wanted ∈ (ofElement name attributes).classes ↔ ∃ entry ∈ attributes,
      Text.sameLetters entry.1 "class" = true ∧
        ∃ word ∈ Text.words entry.2.toList, Text.lowered (String.ofList word) = wanted := by
  rw [ofElement_eq, List.mem_map]
  constructor
  · rintro ⟨found, member, rfl⟩
    obtain ⟨entry, inside, word⟩ := List.mem_flatMap.mp member
    rw [classesOf] at word
    split at word
    next isClass =>
      obtain ⟨run, among, rfl⟩ := List.mem_map.mp word
      exact ⟨entry, inside, isClass, run, among, rfl⟩
    next => cases word
  · rintro ⟨entry, inside, isClass, word, among, rfl⟩
    refine ⟨String.ofList word, List.mem_flatMap.mpr ⟨entry, inside, ?_⟩, rfl⟩
    rw [classesOf, if_pos isClass]
    exact List.mem_map_of_mem among

/-- The values that the compound asks for are in lower case. -/
def Low (pattern : Compound) : Prop := ∀ wanted ∈ pattern.attributes, Text.Lowered wanted.2

theorem low_ofElement (name : String) (attributes : Attributes) :
    (ofElement name attributes).Low := by
  rw [ofElement_eq, Low, List.forall_mem_map]
  exact fun entry _ => Text.lowered_lowered entry.2

/-- An attribute that is there has the wanted value, or any if none is wanted. -/
theorem exists_of_hasAttribute {subject : Compound} (low : subject.Low)
    {wanted : String × String} (wantedLow : Text.Lowered wanted.2)
    (has : subject.hasAttribute wanted = true) :
    ∃ value, (wanted.1, value) ∈ subject.attributes ∧ (wanted.2 = "" ∨ value = wanted.2) := by
  obtain ⟨entry, member, accepted⟩ := List.any_eq_true.mp has
  rw [Bool.and_eq_true, Bool.or_eq_true, beq_iff_eq, String.isEmpty_iff,
    Text.sameLetters_iff (low entry member) wantedLow] at accepted
  exact ⟨entry.2, accepted.1 ▸ member, accepted.2⟩

theorem hasAttribute_iff {wanted : String × String} (low : Text.Lowered wanted.2) :
    (ofElement name attributes).hasAttribute wanted = true ↔ ∃ entry ∈ attributes,
      entry.1 = wanted.1 ∧ (wanted.2 = "" ∨ Text.lowered entry.2 = wanted.2) := by
  have value (entry : String × String) :
      Text.sameLetters (Text.lowered entry.2) wanted.2 = true ↔ Text.lowered entry.2 = wanted.2 :=
    Text.sameLetters_iff (Text.lowered_lowered _) low
  simp only [hasAttribute, ofElement_eq, List.any_map, List.any_eq_true, Function.comp_apply,
    Bool.and_eq_true, Bool.or_eq_true, beq_iff_eq, String.isEmpty_iff, value]

theorem hasElement_iff {wanted : Option String} :
    (ofElement name attributes).hasElement wanted = true ↔
      ∀ other, wanted = some other → other = "*" ∨ other = name := by
  have named : (ofElement name attributes).element = some name := by rw [ofElement_eq]
  unfold hasElement
  rw [named]
  cases wanted with
  | none => simp
  | some other =>
      simp only [Bool.or_eq_true, beq_iff_eq, Option.some.injEq, forall_eq']
      rw [or_comm, eq_comm (a := name)]

theorem satisfies_iff {pattern : Compound} (low : pattern.Low) :
    (ofElement name attributes).satisfies pattern = true ↔ pattern.Describes name attributes := by
  rw [satisfies, Bool.and_eq_true, Bool.and_eq_true, hasElement_iff, List.all_eq_true,
    List.all_eq_true]
  constructor
  · rintro ⟨⟨element, classes⟩, wanted⟩
    refine ⟨element, fun wanted member => ?_, fun entry member => ?_⟩
    · exact mem_classes_ofElement.mp (List.contains_iff_mem.mp (classes wanted member))
    · exact (hasAttribute_iff (low entry member)).mp (wanted entry member)
  · rintro ⟨element, classes, wanted⟩
    refine ⟨⟨element, fun wanted member => ?_⟩, fun entry member => ?_⟩
    · exact List.contains_iff_mem.mpr (mem_classes_ofElement.mpr (classes wanted member))
    · exact (hasAttribute_iff (low entry member)).mpr (wanted entry member)

end Compound

/-! Selectors from text. -/

namespace Selector

/-- What reading guarantees of a selector. -/
structure Proper (selector : Selector) : Prop where
  required : selector.required ≠ .empty
  low : selector.required.Low
  excluded : ∀ group ∈ selector.excluded, group.Low

theorem Proper.accepts_iff {selector : Selector} (proper : selector.Proper) {name : String}
    {attributes : Attributes} :
    selector.accepts (.ofElement name attributes) = true ↔
      selector.Describes name attributes := by
  rw [accepts, Describes, Bool.and_eq_true, Compound.satisfies_iff proper.low,
    Bool.not_eq_true', List.any_eq_false]
  refine and_congr_right fun _ => forall₂_congr fun group member => ?_
  rw [Compound.satisfies_iff (proper.excluded group member)]

structure Draft.Proper (draft : Draft) : Prop where
  complete : ∀ selector ∈ draft.complete, selector.Proper
  required : draft.required.Low
  excluded : ∀ group ∈ draft.excluded, group.Low
  group : ∀ group, draft.group = some group → group.Low

namespace Draft.Proper

variable {draft next : Draft}

theorem empty : Draft.empty.Proper := ⟨nofun, nofun, nofun, nofun⟩

theorem modify (proper : draft.Proper) {f : Compound → Compound}
    (keeps : ∀ compound : Compound, compound.Low → (f compound).Low) :
    (draft.modify f).Proper := by
  rw [Draft.modify]
  split
  next group opened =>
    refine ⟨proper.complete, proper.required, proper.excluded, fun changed equal => ?_⟩
    cases equal
    exact keeps group (proper.group group opened)
  next => exact ⟨proper.complete, keeps _ proper.required, proper.excluded, proper.group⟩

theorem addAttribute (proper : draft.Proper) (name value : String) :
    (draft.modify (·.addAttribute name value)).Proper := by
  refine proper.modify fun compound low wanted member => ?_
  rcases List.mem_append.mp member with old | new
  · exact low wanted old
  · rw [List.mem_singleton.mp new]
    exact Text.lowered_lowered value

theorem complete? (proper : draft.Proper) (completed : draft.complete? = .ok next) :
    next.Proper := by
  have append {required : Compound} (asks : required ≠ .empty) (low : required.Low) :
      ∀ selector ∈ draft.complete ++ [⟨required, draft.excluded⟩], selector.Proper := by
    intro selector member
    rcases List.mem_append.mp member with old | new
    · exact proper.complete selector old
    · rw [List.mem_singleton.mp new]
      exact ⟨asks, low, proper.excluded⟩
  rw [Draft.complete?] at completed
  split at completed
  next =>
    split at completed
    · cases completed
    · cases completed
      exact ⟨append (by decide) nofun, nofun, nofun, nofun⟩
  next asks =>
    cases completed
    exact ⟨append asks proper.required, nofun, nofun, nofun⟩

theorem add (proper : draft.Proper) {item : Item} (added : draft.add item = .ok next) :
    next.Proper := by
  match item with
  | .element name =>
      cases added
      exact proper.modify fun _ low => low
  | .hasClass name =>
      cases added
      exact proper.modify fun _ low => low
  | .hasId value =>
      cases added
      exact proper.addAttribute _ _
  | .attribute name value =>
      rw [Draft.add] at added
      split at added
      · cases added
      · cases added
        exact proper.addAttribute _ _
  | .openNot =>
      rw [Draft.add] at added
      split at added
      · cases added
      · cases added
        refine ⟨proper.complete, proper.required, proper.excluded, fun group equal => ?_⟩
        cases equal
        exact nofun
  | .closeNot =>
      rw [Draft.add] at added
      split at added
      · cases added
      next group opened =>
        cases added
        refine ⟨proper.complete, proper.required, fun other member => ?_, nofun⟩
        rcases List.mem_append.mp member with old | new
        · exact proper.excluded other old
        · rw [List.mem_singleton.mp new]
          exact proper.group group opened
  | .comma =>
      rw [Draft.add] at added
      split at added
      · cases added
      · exact proper.complete? added

theorem addAll (proper : draft.Proper) {items : List Item} (added : draft.addAll items = .ok next) :
    next.Proper := by
  induction items generalizing draft with
  | nil =>
      cases added
      exact proper
  | cons item rest induction =>
      rw [Draft.addAll] at added
      split at added
      · cases added
      next middle first => exact induction (proper.add first) added

theorem finish (proper : draft.Proper) {selectors : List Selector}
    (finished : draft.finish = .ok selectors) : ∀ selector ∈ selectors, selector.Proper := by
  rw [Draft.finish] at finished
  split at finished
  · cases finished
  · split at finished
    · cases finished
    next last completed =>
      cases finished
      exact (proper.complete? completed).complete

end Draft.Proper

theorem proper_of_parse {source : String} {selectors : List Selector}
    (parsed : parse source = .ok selectors) : ∀ selector ∈ selectors, selector.Proper := by
  rw [parse] at parsed
  split at parsed
  · cases parsed
  · split at parsed
    · cases parsed
    next draft added =>
      split at parsed
      · exact (Draft.Proper.empty.addAll added).finish parsed
      · cases parsed

end Selector

end ViewTemplates
