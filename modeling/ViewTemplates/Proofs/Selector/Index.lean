import ViewTemplates.Proofs.Selector.Matching
import ViewTemplates.Selector.Index

/-!
The index of selectors. Its buckets hold exactly what was added under each name, class and
attribute, so a look-up finds what a scan of all added selectors would find, in the same order.
-/

namespace ViewTemplates

namespace Buckets

variable [DecidableEq κ] {buckets : Buckets κ β} {value added : β}

theorem mem_get_add {key wanted : κ} :
    value ∈ (buckets.add key added).get wanted ↔
      value ∈ buckets.get wanted ∨ wanted = key ∧ value = added := by
  rw [get_add]
  split
  next same => simp [same]
  next different => simp [Ne.symm different]

theorem mem_get_foldl_add {keys : List κ} {wanted : κ} :
    value ∈ (keys.foldl (fun buckets key => buckets.add key added) buckets).get wanted ↔
      value ∈ buckets.get wanted ∨ wanted ∈ keys ∧ value = added := by
  induction keys generalizing buckets with
  | nil => simp
  | cons key rest induction =>
      rw [List.foldl_cons, induction, mem_get_add, List.mem_cons, or_and_right, or_assoc]

end Buckets

namespace SelectorIndex

/-- An entry is the selector that was added at its time, with its data. -/
def EntryOf (added : List (Selector × α)) (entry : IndexEntry α) : Prop :=
  added[entry.order]? = some (entry.selector, entry.data)

namespace EntryOf

variable {added : List (Selector × α)} {entry other : IndexEntry α}

theorem mem (entryOf : EntryOf added entry) : (entry.selector, entry.data) ∈ added :=
  List.mem_of_getElem? entryOf

theorem unique (entryOf : EntryOf added entry) (again : EntryOf added other)
    (same : entry.order = other.order) : entry = other := by
  rw [EntryOf, same, again] at entryOf
  obtain ⟨selector, data, order⟩ := entry
  cases entryOf
  cases same
  rfl

theorem append_iff {selector : Selector} {data : α} :
    EntryOf (added ++ [(selector, data)]) entry ↔
      EntryOf added entry ∨ entry = ⟨selector, data, added.length⟩ := by
  rw [EntryOf, List.getElem?_append]
  split
  next early =>
    refine ⟨.inl, fun either => either.elim id ?_⟩
    rintro rfl
    exact absurd early (Nat.lt_irrefl _)
  next late =>
    have absent : ¬EntryOf added entry := fun earlier =>
      late (List.getElem?_eq_some_iff.mp earlier).1
    rw [or_iff_right absent, List.getElem?_singleton]
    split
    next last =>
      have order : entry.order = added.length := by omega
      obtain ⟨other, found, time⟩ := entry
      cases order
      simp [eq_comm]
    next beyond =>
      refine ⟨nofun, fun equal => ?_⟩
      rw [equal] at beyond
      exact absurd (Nat.sub_self _) beyond

end EntryOf

/-- The index was made by adding these selectors with their data, one after the other. -/
structure Lists (index : SelectorIndex α) (added : List (Selector × α)) : Prop where
  size : index.size = added.length
  elements : ∀ name entry, entry ∈ index.elements.get name ↔
    EntryOf added entry ∧ entry.selector.required.element = some name
  classes : ∀ name entry, entry ∈ index.classes.get name ↔
    EntryOf added entry ∧ name ∈ entry.selector.required.classes
  attributes : ∀ key entry, entry ∈ index.attributes.get key ↔
    EntryOf added entry ∧ key ∈ entry.selector.required.attributes

namespace Lists

variable {index : SelectorIndex α} {added : List (Selector × α)}

theorem empty : (SelectorIndex.empty : SelectorIndex α).Lists [] where
  size := rfl
  elements := fun _ _ => ⟨nofun, fun found => nomatch found.1⟩
  classes := fun _ _ => ⟨nofun, fun found => nomatch found.1⟩
  attributes := fun _ _ => ⟨nofun, fun found => nomatch found.1⟩

theorem add (lists : index.Lists added) (selector : Selector) (data : α) :
    (index.add selector data).Lists (added ++ [(selector, data)]) := by
  have step {inBucket : Prop} {entry : IndexEntry α} (asks : Selector → Prop)
      (bucket : inBucket ↔ EntryOf added entry ∧ asks entry.selector) :
      inBucket ∨ asks selector ∧ entry = ⟨selector, data, index.size⟩ ↔
        EntryOf (added ++ [(selector, data)]) entry ∧ asks entry.selector := by
    rw [bucket, EntryOf.append_iff, lists.size, or_and_right]
    refine or_congr_right ⟨?_, ?_⟩
    · rintro ⟨asked, rfl⟩
      exact ⟨rfl, asked⟩
    · rintro ⟨rfl, asked⟩
      exact ⟨asked, rfl⟩
  constructor
  case size => rw [SelectorIndex.add, lists.size, List.length_append]; rfl
  case elements =>
    intro name entry
    rw [← step (fun selector => selector.required.element = some name)
      (lists.elements name entry), SelectorIndex.add]
    cases selector.required.element with
    | none => simp
    | some other => simp [Buckets.mem_get_add, eq_comm]
  case classes =>
    intro name entry
    rw [← step (fun selector => name ∈ selector.required.classes)
      (lists.classes name entry), SelectorIndex.add]
    exact Buckets.mem_get_foldl_add
  case attributes =>
    intro key entry
    rw [← step (fun selector => key ∈ selector.required.attributes)
      (lists.attributes key entry), SelectorIndex.add]
    exact Buckets.mem_get_foldl_add

theorem addAll (lists : index.Lists added) (more : List (Selector × α)) :
    (more.foldl (fun index pair => index.add pair.1 pair.2) index).Lists (added ++ more) := by
  induction more generalizing index added with
  | nil =>
      rw [List.append_nil]
      exact lists
  | cons pair rest induction =>
      have next := induction (lists.add pair.1 pair.2)
      rw [List.append_assoc] at next
      exact next

theorem foldl_add (lists : index.Lists added) (selectors : List Selector) (data : α) :
    (selectors.foldl (fun index selector => index.add selector data) index).Lists
      (added ++ selectors.map (·, data)) := by
  have all := lists.addAll (selectors.map (·, data))
  rwa [List.foldl_map] at all

/-! Candidates. -/

theorem entryOf_of_mem_candidates (lists : index.Lists added) {subject : Compound}
    {entry : IndexEntry α} (member : entry ∈ index.candidates subject) : EntryOf added entry := by
  simp only [candidates, List.mem_append, List.mem_flatMap] at member
  rcases member with ((named | star) | ⟨name, _, inside⟩) | ⟨⟨name, value⟩, _, valued | unvalued⟩
  · split at named
    · exact ((lists.elements _ _).mp named).1
    · cases named
  · exact ((lists.elements _ _).mp star).1
  · exact ((lists.classes _ _).mp inside).1
  · exact ((lists.attributes _ _).mp valued).1
  · split at unvalued
    · cases unvalued
    · exact ((lists.attributes _ _).mp unvalued).1

/-- What accepts a subject shares a bucket with it, unless it asks for an element name alone and the
subject has none. -/
theorem mem_candidates (lists : index.Lists added) {entry : IndexEntry α}
    (entryOf : EntryOf added entry) (proper : entry.selector.Proper) {subject : Compound}
    (low : subject.Low) (accepted : subject.satisfies entry.selector.required = true)
    (reached : subject.element = none → entry.selector.required.isElementOnly = false) :
    entry ∈ index.candidates subject := by
  rw [Compound.satisfies, Bool.and_eq_true, Bool.and_eq_true, List.all_eq_true,
    List.all_eq_true] at accepted
  obtain ⟨⟨named, classed⟩, valued⟩ := accepted
  simp only [candidates, List.mem_append, List.mem_flatMap]
  -- An attribute, a class or the element name that is asked for gives the bucket.
  cases wanted : entry.selector.required.attributes with
  | cons first more =>
      have asked : first ∈ entry.selector.required.attributes := by simp [wanted]
      obtain ⟨value, member, same⟩ :=
        Compound.exists_of_hasAttribute low (proper.low first asked) (valued first asked)
      have bucket : entry ∈ index.attributes.get (first.1, first.2) :=
        (lists.attributes _ _).mpr ⟨entryOf, asked⟩
      refine .inr ⟨(first.1, value), member, ?_⟩
      rcases same with blank | rfl
      · rw [blank] at bucket
        by_cases none : value = ""
        · exact .inl (none ▸ bucket)
        · exact .inr (by rwa [if_neg (by rwa [String.isEmpty_iff])])
      · exact .inl bucket
  | nil =>
      cases classes : entry.selector.required.classes with
      | cons first more =>
          have asked : first ∈ entry.selector.required.classes := by simp [classes]
          exact .inl (.inr ⟨first, List.contains_iff_mem.mp (classed first asked),
            (lists.classes _ _).mpr ⟨entryOf, asked⟩⟩)
      | nil =>
          refine .inl (.inl ?_)
          cases element : entry.selector.required.element with
          | none =>
              exact absurd (Compound.mk.injEq .. ▸ ⟨element, classes, wanted⟩) proper.required
          | some other =>
              have bucket : entry ∈ index.elements.get other :=
                (lists.elements _ _).mpr ⟨entryOf, element⟩
              by_cases star : other = "*"
              · exact .inr (star ▸ bucket)
              · cases has : subject.element with
                | none =>
                    have alone := reached has
                    simp [Compound.isElementOnly, Compound.namesElement, element, classes, wanted,
                      star] at alone
                | some name =>
                    have same : name = other := by
                      simpa [Compound.hasElement, has, element, star] using named
                    exact .inl (same ▸ bucket)

end Lists

/-! Each entry once. -/

theorem mem_of_mem_distinct {entries : List (IndexEntry α)} {entry : IndexEntry α}
    (member : entry ∈ distinct entries) : entry ∈ entries := by
  induction entries with
  | nil => exact member
  | cons first rest induction =>
      rcases List.mem_cons.mp member with rfl | later
      · exact List.mem_cons_self
      · exact List.mem_cons_of_mem _ (induction (List.mem_filter.mp later).1)

theorem exists_mem_distinct {entries : List (IndexEntry α)} {entry : IndexEntry α}
    (member : entry ∈ entries) : ∃ kept ∈ distinct entries, kept.order = entry.order := by
  induction entries with
  | nil => cases member
  | cons first rest induction =>
      rcases Decidable.em (first.order = entry.order) with same | different
      · exact ⟨first, List.mem_cons_self, same⟩
      · rcases List.mem_cons.mp member with rfl | later
        · exact absurd rfl different
        · obtain ⟨kept, inside, order⟩ := induction later
          refine ⟨kept, List.mem_cons_of_mem _ (List.mem_filter.mpr ⟨inside, ?_⟩), order⟩
          rw [order, bne_iff_ne]
          exact Ne.symm different

namespace Lists

variable {index : SelectorIndex α} {added : List (Selector × α)}

theorem mem_accepting_iff (lists : index.Lists added) {subject : Compound}
    {entry : IndexEntry α} :
    entry ∈ index.accepting subject ↔
      entry ∈ index.candidates subject ∧ entry.selector.accepts subject = true := by
  rw [accepting]
  constructor
  · exact fun member => List.mem_filter.mp (mem_of_mem_distinct member)
  · intro both
    have accepted : entry ∈ (index.candidates subject).filter
        fun entry => entry.selector.accepts subject := List.mem_filter.mpr both
    obtain ⟨kept, inside, order⟩ := exists_mem_distinct accepted
    -- Entries of one time are one entry, so the kept one is the wanted one.
    have again := lists.entryOf_of_mem_candidates
      (List.mem_filter.mp (mem_of_mem_distinct inside)).1
    rw [(lists.entryOf_of_mem_candidates both.1).unique again order.symm]
    exact inside

theorem mem_accepting (lists : index.Lists added)
    (proper : ∀ pair ∈ added, pair.1.Proper) {name : String} {attributes : Attributes}
    {entry : IndexEntry α} :
    entry ∈ index.accepting (.ofElement name attributes) ↔
      EntryOf added entry ∧ entry.selector.Describes name attributes := by
  rw [lists.mem_accepting_iff]
  constructor
  · rintro ⟨candidate, accepted⟩
    have entryOf := lists.entryOf_of_mem_candidates candidate
    exact ⟨entryOf, (proper _ entryOf.mem).accepts_iff.mp accepted⟩
  · rintro ⟨entryOf, describes⟩
    have asks : entry.selector.Proper := proper _ entryOf.mem
    have candidate := lists.mem_candidates entryOf asks (Compound.low_ofElement name attributes)
      ((Compound.satisfies_iff asks.low).mpr describes.1) (by rw [Compound.ofElement_eq]; nofun)
    exact ⟨candidate, asks.accepts_iff.mpr describes⟩

/-- A look-up finds the data of all added selectors that describe the element. -/
theorem mem_lookup (lists : index.Lists added) (proper : ∀ pair ∈ added, pair.1.Proper)
    {name : String} {attributes : Attributes} {data : α} :
    data ∈ index.lookup (.ofElement name attributes) ↔
      ∃ selector, (selector, data) ∈ added ∧ selector.Describes name attributes := by
  rw [lookup, List.mem_map]
  constructor
  · rintro ⟨entry, member, rfl⟩
    obtain ⟨entryOf, describes⟩ := (lists.mem_accepting proper).mp (List.mem_mergeSort.mp member)
    exact ⟨entry.selector, entryOf.mem, describes⟩
  · rintro ⟨selector, member, describes⟩
    obtain ⟨order, found⟩ := List.getElem?_of_mem member
    exact ⟨⟨selector, data, order⟩,
      List.mem_mergeSort.mpr ((lists.mem_accepting proper).mpr ⟨found, describes⟩), rfl⟩

/-- A look-up sorts what it finds by the order of addition. -/
theorem ordered_accepting (index : SelectorIndex α) (subject : Compound) :
    ((index.accepting subject).mergeSort fun left right => left.order ≤ right.order).Pairwise
      fun left right => left.order ≤ right.order := by
  have sorted := @List.pairwise_mergeSort (IndexEntry α)
    (fun left right => left.order ≤ right.order)
    (by simpa using fun _ _ _ => Nat.le_trans) (by simpa using fun _ _ => Nat.le_total _ _)
    (index.accepting subject)
  simpa using sorted

theorem lookup_of_pairwise {index : SelectorIndex α} {subject : Compound}
    (ordered : (index.accepting subject).Pairwise fun left right => left.order ≤ right.order) :
    index.lookup subject = (index.accepting subject).map (·.data) := by
  rw [lookup, List.mergeSort_of_pairwise (by simpa using ordered)]

/-- Where the data ascends in the order of addition, it does so in what a look-up finds. -/
theorem sorted_lookup {index : SelectorIndex Nat} {added : List (Selector × Nat)}
    (lists : index.Lists added) (sorted : (added.map Prod.snd).Pairwise (· ≤ ·))
    (subject : Compound) : (index.lookup subject).Pairwise (· ≤ ·) := by
  have ordered := ordered_accepting index subject
  rw [lookup, List.pairwise_map]
  refine ordered.imp_of_mem fun {left right} leftMember rightMember order => ?_
  have data {entry : IndexEntry Nat} (member : entry ∈ (index.accepting subject).mergeSort
      fun left right => left.order ≤ right.order) :
      (added.map Prod.snd)[entry.order]? = some entry.data := by
    have accepted := mem_of_mem_distinct (List.mem_mergeSort.mp member)
    have entryOf := lists.entryOf_of_mem_candidates (List.mem_filter.mp accepted).1
    rw [List.getElem?_map, entryOf]
    rfl
  obtain ⟨leftBound, leftData⟩ := List.getElem?_eq_some_iff.mp (data leftMember)
  obtain ⟨rightBound, rightData⟩ := List.getElem?_eq_some_iff.mp (data rightMember)
  rw [← leftData, ← rightData]
  rcases Nat.lt_or_eq_of_le order with before | same
  · exact List.pairwise_iff_getElem.mp sorted _ _ leftBound rightBound before
  · simp only [same]
    exact Nat.le_refl _

end Lists

end SelectorIndex

end ViewTemplates
