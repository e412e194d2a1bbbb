import Mathlib.Data.List.Sort
import ViewTemplates.Proofs.Selector.Acceptance
import ViewTemplates.Proofs.Selector.Index

/-!
A look-up against a scan of all that was added. They agree where the subject has an element name. A
subject without one shares no bucket with a selector that asks for an element by name and for
nothing else, so a look-up passes over such selectors although they accept it.
-/

namespace ViewTemplates

/-! Subjects. -/

/-- One thing that is said of a subject. -/
inductive Trait where
  | element (name : String)
  | entry (name value : String)
  | hasClass (name : String)
  deriving Repr, DecidableEq

namespace Compound

def having (compound : Compound) : Trait → Compound
  | .element name => compound.withElement name
  | .entry name value => compound.addAttribute name value
  | .hasClass name => compound.addClass name

/-- The subject of which all this is said, one thing after the other. -/
def ofTraits (traits : List Trait) : Compound := traits.foldl having .empty

theorem Low.having {compound : Compound} (low : compound.Low) (more : Trait) :
    (compound.having more).Low := by
  cases more with
  | element | hasClass => exact low
  | entry name value =>
      exact List.forall_mem_append.mpr
        ⟨low, List.forall_mem_singleton.mpr (Text.lowered_lowered value)⟩

theorem low_ofTraits (traits : List Trait) : (ofTraits traits).Low := by
  suffices from_ : ∀ compound : Compound, compound.Low → (traits.foldl Compound.having compound).Low
    from from_ .empty nofun
  induction traits with
  | nil => exact fun _ low => low
  | cons first rest induction => exact fun _ low => induction _ (low.having first)

end Compound

namespace SelectorIndex

/-- All that was added, in its order. -/
def entries (added : List (Selector × α)) : List (IndexEntry α) :=
  added.zipIdx.map fun place => ⟨place.1.1, place.1.2, place.2⟩

def ofAdded (added : List (Selector × α)) : SelectorIndex α :=
  added.foldl (fun index pair => index.add pair.1 pair.2) .empty

/-- The entry accepts the subject, and asks for more than an element name if the subject has none. -/
def reports (subject : Compound) (entry : IndexEntry α) : Bool :=
  entry.selector.accepts subject &&
    (subject.element.isSome || !entry.selector.required.isElementOnly)

variable {added : List (Selector × α)} {index : SelectorIndex α} {subject : Compound}

theorem mem_entries {entry : IndexEntry α} : entry ∈ entries added ↔ EntryOf added entry := by
  rw [entries, List.mem_map, EntryOf]
  constructor
  · rintro ⟨⟨⟨selector, data⟩, order⟩, member, rfl⟩
    exact List.mk_mem_zipIdx_iff_getElem?.mp member
  · intro found
    exact ⟨_, List.mk_mem_zipIdx_iff_getElem?.mpr found, rfl⟩

theorem ascending_entries (added : List (Selector × α)) :
    (entries added).Pairwise fun left right => left.order < right.order := by
  have numbers : (added.zipIdx.map Prod.snd).Pairwise (· < ·) := by
    rw [List.zipIdx_map_snd]
    exact List.pairwise_lt_range'
  rw [entries, List.pairwise_map]
  exact List.pairwise_map.mp numbers

theorem lists_ofAdded (added : List (Selector × α)) : (ofAdded added).Lists added :=
  Lists.empty.addAll added

theorem distinct_orders (entries : List (IndexEntry α)) :
    (distinct entries).Pairwise fun left right => left.order ≠ right.order := by
  induction entries with
  | nil => exact .nil
  | cons entry rest induction =>
      refine List.pairwise_cons.mpr ⟨fun other member => ?_, induction.filter _⟩
      exact (bne_iff_ne.mp (List.mem_filter.mp member).2).symm

namespace Lists

/-- A selector that asks for an element name alone is in no bucket of a subject without one. -/
theorem notMem_candidates (lists : index.Lists added) {entry : IndexEntry α}
    (nameless : subject.element = none) (alone : entry.selector.required.isElementOnly = true) :
    entry ∉ index.candidates subject := by
  rw [Compound.isElementOnly, Bool.and_eq_true, Bool.and_eq_true, List.isEmpty_iff,
    List.isEmpty_iff] at alone
  obtain ⟨⟨named, classless⟩, bare⟩ := alone
  simp only [candidates, nameless, List.nil_append, List.mem_append, List.mem_flatMap]
  rintro ((star | ⟨name, _, inside⟩) | ⟨⟨name, value⟩, _, valued | unvalued⟩)
  · have element := ((lists.elements _ _).mp star).2
    rw [Compound.namesElement, element] at named
    cases named
  · have asked := ((lists.classes _ _).mp inside).2
    rw [classless] at asked
    cases asked
  · have asked := ((lists.attributes _ _).mp valued).2
    rw [bare] at asked
    cases asked
  · split at unvalued
    · cases unvalued
    · have asked := ((lists.attributes _ _).mp unvalued).2
      rw [bare] at asked
      cases asked

/-- What a look-up visits is what a scan reports. -/
theorem perm_accepting (lists : index.Lists added) (proper : ∀ pair ∈ added, pair.1.Proper)
    (low : subject.Low) :
    (index.accepting subject).Perm ((entries added).filter (reports subject)) := by
  have once : (index.accepting subject).Nodup :=
    (distinct_orders _).imp fun different same => different (congrArg IndexEntry.order same)
  have eachOnce : (entries added).Nodup :=
    (ascending_entries added).imp fun before same =>
      Nat.ne_of_lt before (congrArg IndexEntry.order same)
  refine (List.perm_ext_iff_of_nodup once (eachOnce.filter _)).mpr fun entry => ?_
  rw [lists.mem_accepting_iff, List.mem_filter, mem_entries, reports, Bool.and_eq_true,
    Bool.or_eq_true, Bool.not_eq_true']
  constructor
  · rintro ⟨candidate, accepted⟩
    refine ⟨lists.entryOf_of_mem_candidates candidate, accepted, ?_⟩
    cases named : subject.element with
    | some => exact .inl rfl
    | none =>
        refine .inr (Bool.eq_false_iff.mpr fun alone => ?_)
        exact lists.notMem_candidates named alone candidate
  · rintro ⟨entryOf, accepted, reached⟩
    have required : subject.satisfies entry.selector.required = true :=
      (Bool.and_eq_true_iff.mp accepted).1
    refine ⟨lists.mem_candidates entryOf (proper _ entryOf.mem) low required fun nameless => ?_,
      accepted⟩
    rw [nameless] at reached
    exact reached.resolve_left Bool.false_ne_true

/-- A look-up gives what a scan reports, in its order. -/
theorem sort_accepting (lists : index.Lists added) (proper : ∀ pair ∈ added, pair.1.Proper)
    (low : subject.Low) :
    ((index.accepting subject).mergeSort fun left right => left.order ≤ right.order) =
      (entries added).filter (reports subject) := by
  have perm := lists.perm_accepting proper low
  refine List.Perm.eq_of_pairwise (fun left right one other before after => ?_)
    (ordered_accepting index subject)
    (((ascending_entries added).imp Nat.le_of_lt).filter _) ((List.mergeSort_perm _ _).trans perm)
  have first := (List.mem_filter.mp (perm.mem_iff.mp (List.mem_mergeSort.mp one))).1
  have second := (List.mem_filter.mp other).1
  exact (mem_entries.mp first).unique (mem_entries.mp second) (Nat.le_antisymm before after)

end Lists

/-- A look-up finds what a scan of all that was added finds, each entry once and in the order of
addition, save the selectors that ask for an element name alone where the subject has none. -/
theorem lookup_eq_scan (added : List (Selector × α)) (traits : List Trait)
    (read : ∀ pair ∈ added, ∃ source selectors,
      Selector.parse source = .ok selectors ∧ pair.1 ∈ selectors) :
    let index := ofAdded added
    let subject := Compound.ofTraits traits
    let reported := (entries added).filter (reports subject)
    index.lookup subject = reported.map (·.data) ∧ (index.accepting subject).Perm reported ∧
      (index.accepts subject = true ↔ reported ≠ []) ∧
      (subject.element ≠ none →
        reported = (entries added).filter fun entry => entry.selector.accepts subject) := by
  intro index subject reported
  have lists : index.Lists added := lists_ofAdded added
  have low : subject.Low := Compound.low_ofTraits traits
  have proper : ∀ pair ∈ added, pair.1.Proper := by
    intro pair member
    obtain ⟨source, selectors, parsed, inside⟩ := read pair member
    exact Selector.proper_of_parse parsed pair.1 inside
  have perm : (index.accepting subject).Perm reported := lists.perm_accepting proper low
  refine ⟨?_, perm, ?_, fun named => ?_⟩
  · rw [lookup, lists.sort_accepting proper low]
  · rw [SelectorIndex.accepts, perm.isEmpty_eq, Bool.not_eq_true', List.isEmpty_eq_false_iff]
  · refine List.filter_congr fun entry _ => ?_
    rw [reports, Option.isSome_iff_ne_none.mpr named, Bool.true_or, Bool.and_true]

/-- The alternatives of `p`, `p.wide` and `[title=a], :not(.wide)`, with the number of their text. -/
def wideParagraphs : List (Selector × Nat) :=
  [(⟨⟨some "p", [], []⟩, []⟩, 0), (⟨⟨some "p", ["wide"], []⟩, []⟩, 1),
    (⟨⟨none, [], [("title", "a")]⟩, []⟩, 2), (⟨⟨some "*", [], []⟩, [⟨none, ["wide"], []⟩]⟩, 2)]

theorem lookup_eq_scan_nameless :
    (∀ pair ∈ wideParagraphs, ∃ source selectors,
      Selector.parse source = .ok selectors ∧ pair.1 ∈ selectors) ∧
    (ofAdded wideParagraphs).lookup (.ofTraits [.entry "title" "A", .hasClass "Wide"]) = [1, 2] := by
  have named : Selector.parse "p" = .ok [⟨⟨some "p", [], []⟩, []⟩] := by decide +kernel
  have wide : Selector.parse "p.wide" = .ok [⟨⟨some "p", ["wide"], []⟩, []⟩] := by decide +kernel
  have titled : Selector.parse "[title=a], :not(.wide)" =
      .ok [⟨⟨none, [], [("title", "a")]⟩, []⟩, ⟨⟨some "*", [], []⟩, [⟨none, ["wide"], []⟩]⟩] := by
    decide +kernel
  have read : ∀ pair ∈ wideParagraphs, ∃ source selectors,
      Selector.parse source = .ok selectors ∧ pair.1 ∈ selectors := by
    rw [wideParagraphs, List.forall_mem_cons, List.forall_mem_cons, List.forall_mem_cons,
      List.forall_mem_singleton]
    exact ⟨⟨_, _, named, List.mem_singleton_self _⟩, ⟨_, _, wide, List.mem_singleton_self _⟩,
      ⟨_, _, titled, List.mem_cons_self⟩,
      ⟨_, _, titled, List.mem_cons_of_mem _ (List.mem_singleton_self _)⟩⟩
  exact ⟨read, (lookup_eq_scan wideParagraphs _ read).1.trans (by decide +kernel)⟩

/-- A selector that is an element name accepts a subject without one, but no look-up finds it. -/
theorem accepting_selector_unreported : ∃ selector, Selector.parse "div" = .ok [selector] ∧
    selector.accepts (.ofTraits []) = true ∧
    (ofAdded [(selector, 0)]).lookup (.ofTraits []) = [] ∧
    (ofAdded [(selector, 0)]).accepts (.ofTraits []) = false :=
  ⟨⟨⟨some "div", [], []⟩, []⟩, by decide +kernel⟩

end SelectorIndex

end ViewTemplates
