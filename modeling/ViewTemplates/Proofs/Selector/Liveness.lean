import Mathlib.Data.Finset.Dedup
import Mathlib.Data.Set.Finite.Basic
import Mathlib.Tactic.Choose
import ViewTemplates.Proofs.Directive.Matching
import ViewTemplates.Proofs.Selector.Meaning
import ViewTemplates.Proofs.Text.Words

/-!
Which selectors describe any element. An element that has what is required and nothing else to
speak of is described if any is: its free values are chosen apart from all that is excluded. What
cannot be chosen is what the required part entails, and one more attribute where classes are asked
for that no required value holds.
-/

namespace ViewTemplates

/-- The attribute is asked for with this value. -/
def Compound.Pins (pattern : Compound) (name value : String) : Prop :=
  (name, value) ∈ pattern.attributes ∧ value ≠ ""

/-- The class is a word of a class attribute whose value is asked for. -/
def Compound.Implies (pattern : Compound) (wanted : String) : Prop :=
  ∃ name value, pattern.Pins name value ∧ Text.sameLetters name "class" = true ∧
    ∃ word ∈ Text.words value.toList, String.ofList word = wanted

/-- Each element with all that is required, and with the attribute besides, has all of the group. -/
structure Compound.Entails (required : Compound) (carrier : Option String) (group : Compound) :
    Prop where
  element : ∀ wanted, group.element = some wanted →
    wanted = "*" ∨ required.element = some wanted
  classes : ∀ wanted ∈ group.classes, wanted ∈ required.classes ∨ required.Implies wanted
  attributes : ∀ entry ∈ group.attributes,
    ((∃ value, (entry.1, value) ∈ required.attributes) ∨ carrier = some entry.1) ∧
      (entry.2 = "" ∨ entry ∈ required.attributes)

/-- The required classes can stand in the attribute, or stand in required values already; and with
it no excluded group is entailed. -/
structure Selector.Room (selector : Selector) (carrier : Option String) : Prop where
  implied : carrier = none → ∀ wanted ∈ selector.required.classes,
    selector.required.Implies wanted
  free : ∀ name, carrier = some name →
    Text.sameLetters name "class" = true ∧ ∀ value, ¬selector.required.Pins name value
  excluded : ∀ group ∈ selector.excluded, ¬selector.required.Entails carrier group

/-- No attribute is asked for with two values, and there is room for the classes. -/
structure Selector.Live (selector : Selector) : Prop where
  consistent : ∀ name one other, selector.required.Pins name one →
    selector.required.Pins name other → one = other
  room : ∃ carrier, selector.Room carrier

/-! What is described is live. -/

/-- The words of a lowered value are the classes that the value gives. -/
theorem Text.mem_words_lowered {value wanted : String} :
    (∃ word ∈ words (lowered value).toList, String.ofList word = wanted) ↔
      ∃ word ∈ words value.toList, lowered (String.ofList word) = wanted := by
  rw [lowered, String.toList_ofList, words_lower]
  simp only [List.mem_map, exists_exists_and_eq_and, lowered, String.toList_ofList]

namespace Selector

variable {selector : Selector} {name : String} {attributes : Attributes}

section
variable {required : Compound} (describes : required.Describes name attributes)
include describes

theorem pinned_value {wanted value : String} (pins : required.Pins wanted value) :
    ∃ entry ∈ attributes, entry.1 = wanted ∧ Text.lowered entry.2 = value := by
  obtain ⟨entry, member, named, valued⟩ := describes.attributes _ pins.1
  exact ⟨entry, member, named, valued.resolve_left pins.2⟩

theorem class_of_implies {wanted : String} (implied : required.Implies wanted) :
    ∃ entry ∈ attributes, Text.sameLetters entry.1 "class" = true ∧
      ∃ word ∈ Text.words entry.2.toList, Text.lowered (String.ofList word) = wanted := by
  obtain ⟨other, value, pins, isClass, word⟩ := implied
  obtain ⟨entry, member, rfl, rfl⟩ := pinned_value describes pins
  exact ⟨entry, member, isClass, Text.mem_words_lowered.mp word⟩

/-- An element with all that is required and the attribute has what these entail. -/
theorem describes_of_entails {carrier : Option String} {group : Compound}
    (carried : ∀ wanted, carrier = some wanted → ∃ entry ∈ attributes, entry.1 = wanted)
    (entails : required.Entails carrier group) : group.Describes name attributes where
  element := by
    intro wanted asked
    exact (entails.element wanted asked).elim .inl (describes.element wanted)
  classes := by
    intro wanted member
    exact (entails.classes wanted member).elim (describes.classes wanted)
      (class_of_implies describes)
  attributes := by
    intro entry member
    obtain ⟨present, unvalued | again⟩ := entails.attributes entry member
    · obtain ⟨found, inside, named⟩ : ∃ found ∈ attributes, found.1 = entry.1 := by
        rcases present with ⟨value, asked⟩ | carries
        · obtain ⟨found, inside, named, -⟩ := describes.attributes _ asked
          exact ⟨found, inside, named⟩
        · exact carried _ carries
      exact ⟨found, inside, named, .inl unvalued⟩
    · exact describes.attributes entry again

end

theorem Live.of_describes (distinct : (attributes.map Prod.fst).Nodup)
    (describes : selector.Describes name attributes) : selector.Live := by
  obtain ⟨required, excluded⟩ := describes
  constructor
  case consistent =>
    intro wanted one other first second
    obtain ⟨entry, member, named, rfl⟩ := pinned_value required first
    obtain ⟨again, inside, same, rfl⟩ := pinned_value required second
    rw [List.inj_on_of_nodup_map distinct member inside (named.trans same.symm)]
  case room =>
    by_cases implied : ∀ wanted ∈ selector.required.classes, selector.required.Implies wanted
    · refine ⟨none, fun _ => implied, nofun, fun group member entails => ?_⟩
      exact excluded group member (describes_of_entails required (by rintro _ ⟨⟩) entails)
    · simp only [not_forall] at implied
      obtain ⟨wanted, asked, loose⟩ := implied
      obtain ⟨entry, member, isClass, word⟩ := required.classes wanted asked
      refine ⟨some entry.1, nofun, ?_, fun group among entails => ?_⟩
      · rintro _ ⟨⟩
        refine ⟨isClass, fun value pins => loose ?_⟩
        obtain ⟨again, inside, same, rfl⟩ := pinned_value required pins
        rw [List.inj_on_of_nodup_map distinct inside member same] at pins
        exact ⟨entry.1, _, pins, isClass, Text.mem_words_lowered.mpr word⟩
      · refine excluded group among (describes_of_entails required ?_ entails)
        rintro _ ⟨⟩
        exact ⟨entry, member, rfl⟩

end Selector

/-! What is live is described. -/

namespace Text

theorem words_row {list : List (List Char)}
    (each : ∀ word ∈ list, word ≠ [] ∧ ∀ c ∈ word, isBlank c = false) :
    words (list.flatMap (' ' :: ·)) = list := by
  induction list with
  | nil => rfl
  | cons word rest induction =>
      obtain ⟨⟨nonempty, inside⟩, others⟩ := List.forall_mem_cons.mp each
      have ends : ∀ c ∈ (rest.flatMap (' ' :: ·)).head?, isBlank c = true := by
        cases rest with
        | nil => exact nofun
        | cons =>
            rintro _ ⟨⟩
            rfl
      rw [List.flatMap_cons, List.cons_append, words_cons rfl, words_run nonempty inside ends,
        induction others]

theorem words_replicate (count : Nat) (text : List Char) :
    words (List.replicate count ' ' ++ text) = words text := by
  induction count with
  | zero => rfl
  | succ count induction => rw [List.replicate_succ, List.cons_append, words_cons rfl, induction]

theorem lower_replicate (count : Nat) (text : List Char) :
    lower (List.replicate count ' ' ++ text) = List.replicate count ' ' ++ lower text := by
  induction count with
  | zero => rfl
  | succ count induction =>
      rw [List.replicate_succ, List.cons_append, lower_cons rfl, induction, List.cons_append]

/-- The words can stand in a value that is none of those to avoid: with blanks enough. -/
theorem exists_value {list : List (List Char)}
    (each : ∀ word ∈ list, word ≠ [] ∧ ∀ c ∈ word, isBlank c = false) (avoided : List String) :
    ∃ value : String, words value.toList = list ∧ lowered value ∉ avoided := by
  let padded (count : Nat) : String :=
    String.ofList (List.replicate count ' ' ++ list.flatMap (' ' :: ·))
  have injective : Function.Injective fun count => lowered (padded count) := by
    intro one other same
    simp only [padded, lowered, String.toList_ofList, lower_replicate, String.ofList_inj,
      List.append_cancel_right_eq] at same
    exact (List.replicate_inj.mp same).1
  obtain ⟨_, ⟨count, rfl⟩, fresh⟩ :=
    (Set.infinite_range_of_injective injective).exists_notMem_finset avoided.toFinset
  refine ⟨padded count, ?_, fun avoids => fresh (List.mem_toFinset.mpr avoids)⟩
  rw [String.toList_ofList, words_replicate, words_row each]

end Text

namespace Selector

/-- What is required is written in a text: classes as words, and values. -/
structure Spelled (selector : Selector) : Prop where
  classes : ∃ words : List (List Char),
    (∀ word ∈ words, word ≠ [] ∧ ∀ c ∈ word, Text.isBlank c = false) ∧
      words.map (fun word => Text.lowered (String.ofList word)) = selector.required.classes
  values : ∀ entry ∈ selector.required.attributes, ∃ value, Text.lowered value = entry.2

/-- The class of an item as it is written. -/
def Item.classText? : Item → Option (List Char)
  | .hasClass name => some name.toList
  | _ => none

open Item in
theorem spelled_of_parse {source : String} {selectors : List Selector}
    (parsed : parse source = .ok selectors) : ∀ selector ∈ selectors, selector.Spelled := by
  obtain ⟨items, accepted, rfl⟩ := parse_eq_ok.mp parsed
  rw [List.forall_mem_map]
  intro part member
  have legible (item : Item) (inside : item ∈ outside part) : item.Legible :=
    accepted.tiled.legible item (mem_of_mem_splitOn member (mem_of_mem_outside inside))
  rw [ofPart]
  split
  next => exact ⟨⟨[], List.forall_mem_nil _, rfl⟩, List.forall_mem_nil _⟩
  next =>
    constructor
    case classes =>
      refine ⟨(outside part).filterMap classText?, fun word written => ?_, ?_⟩
      · obtain ⟨item, inside, spells⟩ := List.mem_filterMap.mp written
        cases item with
        | hasClass name =>
            cases spells
            obtain ⟨nonempty, plain⟩ := legible _ inside
            exact ⟨fun nothing => nonempty (String.toList_eq_nil_iff.mp nothing), plain⟩
        | _ => cases spells
      · rw [List.map_filterMap, Compound.ofItems]
        refine List.filterMap_congr fun item _ => ?_
        cases item with
        | hasClass name =>
            rw [classText?, Option.map_some, String.ofList_toList]
            rfl
        | _ => rfl
    case values =>
      intro entry asked
      obtain ⟨item, -, asks⟩ := List.mem_filterMap.mp asked
      cases item with
      | hasId value | «attribute» _ value =>
          cases asks
          exact ⟨value, rfl⟩
      | _ => cases asks

variable {selector : Selector}

/-- The name that is required, or one that stands nowhere in the selector. -/
theorem exists_name (selector : Selector) : ∃ name : String,
    (∀ wanted, selector.required.element = some wanted → wanted = "*" ∨ wanted = name) ∧
      ∀ group ∈ selector.excluded, group.element = some name →
        selector.required.element = some name := by
  obtain ⟨fresh, unused⟩ := Infinite.exists_notMem_finset
    (selector.excluded.filterMap (·.element)).toFinset
  rw [List.mem_toFinset, List.mem_filterMap] at unused
  cases required : selector.required.element with
  | none =>
      refine ⟨fresh, nofun, fun group member named => ?_⟩
      exact absurd ⟨group, member, named⟩ unused
  | some wanted =>
      by_cases star : wanted = "*"
      · refine ⟨fresh, ?_, fun group member named => absurd ⟨group, member, named⟩ unused⟩
        rintro _ ⟨⟩
        exact .inl star
      · exact ⟨wanted, by rintro _ ⟨⟩; exact .inr rfl, fun _ _ _ => rfl⟩

/-- Values for the attributes: those that are required, a value for the classes that is none of the
excluded ones, and else nothing. -/
structure Chosen (selector : Selector) (carrier : Option String) (value : String → String) :
    Prop where
  pinned : ∀ name wanted, selector.required.Pins name wanted →
    Text.lowered (value name) = wanted
  carried : ∀ name, carrier = some name → ∀ wanted, wanted ∈ selector.required.classes ↔
    ∃ word ∈ Text.words (value name).toList, Text.lowered (String.ofList word) = wanted
  apart : ∀ name, carrier = some name → ∀ group ∈ selector.excluded,
    (name, Text.lowered (value name)) ∉ group.attributes
  empty : ∀ name, (∀ wanted, ¬selector.required.Pins name wanted) → carrier ≠ some name →
    value name = ""

theorem exists_chosen (spelled : selector.Spelled)
    (consistent : ∀ name one other, selector.required.Pins name one →
      selector.required.Pins name other → one = other)
    {carrier : Option String} (room : selector.Room carrier) :
    ∃ value, selector.Chosen carrier value := by
  obtain ⟨list, plain, classes⟩ := spelled.classes
  obtain ⟨full, words, fresh⟩ := Text.exists_value plain
    ((selector.excluded.flatMap (·.attributes)).map Prod.snd)
  have each (name : String) : ∃ value : String,
      (∀ wanted, selector.required.Pins name wanted → Text.lowered value = wanted) ∧
      (carrier = some name → value = full) ∧
      ((∀ wanted, ¬selector.required.Pins name wanted) → carrier ≠ some name → value = "") := by
    by_cases pinned : ∃ wanted, selector.required.Pins name wanted
    · obtain ⟨wanted, pins⟩ := pinned
      obtain ⟨value, lowers⟩ := spelled.values _ pins.1
      refine ⟨value, fun other again => ?_, fun carries => ?_, fun free => ?_⟩
      · exact lowers.trans (consistent name _ _ pins again)
      · exact absurd pins ((room.free name carries).2 wanted)
      · exact absurd pins (free wanted)
    · simp only [not_exists] at pinned
      by_cases carries : carrier = some name
      · exact ⟨full, fun wanted pins => absurd pins (pinned wanted), fun _ => rfl,
          fun _ other => absurd carries other⟩
      · exact ⟨"", fun wanted pins => absurd pins (pinned wanted),
          fun again => absurd again carries, fun _ _ => rfl⟩
  choose value pinned carried empty using each
  refine ⟨value, pinned, fun name carries wanted => ?_, fun name carries group member asked => ?_,
    empty⟩
  · rw [carried name carries, words, ← classes, List.mem_map]
  · rw [carried name carries] at asked
    exact fresh (List.mem_map.mpr ⟨_, List.mem_flatMap.mpr ⟨group, member, asked⟩, rfl⟩)

/-- The required attributes and the carrier, each once, with their values. -/
def attributesWith (selector : Selector) (carrier : Option String) (value : String → String) :
    Attributes :=
  (selector.required.attributes.map Prod.fst ++ carrier.toList).dedup.map fun name =>
    (name, value name)

theorem mem_attributesWith {carrier : Option String} {value : String → String}
    {entry : String × String} : entry ∈ selector.attributesWith carrier value ↔
      ((∃ wanted, (entry.1, wanted) ∈ selector.required.attributes) ∨ carrier = some entry.1) ∧
        entry.2 = value entry.1 := by
  obtain ⟨name, text⟩ := entry
  simp only [attributesWith, List.mem_map, List.mem_dedup, List.mem_append, Option.mem_toList,
    Prod.exists, exists_and_right, exists_eq_right, Prod.mk.injEq]
  constructor
  · rintro ⟨other, present, rfl, rfl⟩
    exact ⟨present, rfl⟩
  · rintro ⟨present, rfl⟩
    exact ⟨name, present, rfl, rfl⟩

theorem distinct_attributesWith (carrier : Option String) (value : String → String) :
    ((selector.attributesWith carrier value).map Prod.fst).Nodup := by
  rw [attributesWith, List.map_map]
  have names : (Prod.fst ∘ fun name => (name, value name)) = (id : String → String) := rfl
  rw [names, List.map_id]
  exact List.nodup_dedup _

/-- The element with the chosen values has what is required. -/
theorem Chosen.required {carrier : Option String} {value : String → String}
    (chosen : selector.Chosen carrier value) (room : selector.Room carrier) {name : String}
    (named : ∀ wanted, selector.required.element = some wanted → wanted = "*" ∨ wanted = name) :
    selector.required.Describes name (selector.attributesWith carrier value) where
  element := named
  classes := by
    intro wanted asked
    cases carries : carrier with
    | none =>
        obtain ⟨other, text, pins, isClass, word⟩ := room.implied carries wanted asked
        refine ⟨(other, value other), mem_attributesWith.mpr ⟨.inl ⟨text, pins.1⟩, rfl⟩, isClass, ?_⟩
        rw [← chosen.pinned _ _ pins] at word
        exact Text.mem_words_lowered.mp word
    | some other =>
        subst carries
        exact ⟨(other, value other), mem_attributesWith.mpr ⟨.inr rfl, rfl⟩, (room.free _ rfl).1,
          (chosen.carried _ rfl wanted).mp asked⟩
  attributes := by
    rintro ⟨other, wanted⟩ asked
    refine ⟨(other, value other), mem_attributesWith.mpr ⟨.inl ⟨wanted, asked⟩, rfl⟩, rfl, ?_⟩
    by_cases nothing : wanted = ""
    · exact .inl nothing
    · exact .inr (chosen.pinned other wanted ⟨asked, nothing⟩)

/-- What else it has is entailed. -/
theorem Chosen.entails {carrier : Option String} {value : String → String}
    (chosen : selector.Chosen carrier value) {name : String} {group : Compound}
    (member : group ∈ selector.excluded)
    (unnamed : group.element = some name → selector.required.element = some name)
    (describes : group.Describes name (selector.attributesWith carrier value)) :
    selector.required.Entails carrier group where
  element := by
    intro wanted asked
    rcases describes.element wanted asked with star | rfl
    · exact .inl star
    · exact .inr (unnamed asked)
  classes := by
    intro wanted asked
    obtain ⟨entry, among, isClass, word⟩ := describes.classes wanted asked
    obtain ⟨-, valued⟩ := mem_attributesWith.mp among
    rw [valued] at word
    by_cases pinned : ∃ required, selector.required.Pins entry.1 required
    · obtain ⟨required, pins⟩ := pinned
      refine .inr ⟨entry.1, required, pins, isClass, ?_⟩
      rw [← chosen.pinned _ _ pins]
      exact Text.mem_words_lowered.mpr word
    · by_cases carries : carrier = some entry.1
      · exact .inl ((chosen.carried _ carries wanted).mpr word)
      · obtain ⟨run, inside, -⟩ := word
        rw [chosen.empty entry.1 (not_exists.mp pinned) carries] at inside
        cases inside
  attributes := by
    rintro ⟨other, wanted⟩ asked
    obtain ⟨entry, among, rfl, valued⟩ := describes.attributes _ asked
    obtain ⟨present, same⟩ := mem_attributesWith.mp among
    refine ⟨present, ?_⟩
    by_cases nothing : wanted = ""
    · exact .inl nothing
    have lowers : Text.lowered (value entry.1) = wanted := same ▸ valued.resolve_left nothing
    by_cases pinned : ∃ required, selector.required.Pins entry.1 required
    · obtain ⟨required, pins⟩ := pinned
      rw [← lowers, chosen.pinned _ _ pins]
      exact .inr pins.1
    · by_cases carries : carrier = some entry.1
      · rw [← lowers] at asked
        exact absurd asked (chosen.apart _ carries group member)
      · rw [chosen.empty _ (not_exists.mp pinned) carries] at lowers
        exact absurd (lowers.symm.trans (Text.lowered_eq_empty.mpr rfl)) nothing

theorem Live.describes (spelled : selector.Spelled) (live : selector.Live) :
    ∃ name attributes, (attributes.map Prod.fst).Nodup ∧ selector.Describes name attributes := by
  obtain ⟨consistent, carrier, room⟩ := live
  obtain ⟨name, named, unnamed⟩ := selector.exists_name
  obtain ⟨value, chosen⟩ := exists_chosen spelled consistent room
  refine ⟨name, selector.attributesWith carrier value, distinct_attributesWith carrier value,
    chosen.required room named, fun group member describes => ?_⟩
  exact room.excluded group member (chosen.entails member (unnamed group member) describes)

end Selector

end ViewTemplates
