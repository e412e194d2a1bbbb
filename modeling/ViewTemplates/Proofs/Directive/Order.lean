import ViewTemplates.Directive.Registry
import ViewTemplates.Proofs.Selector.Index

/-!
The order of directives. Selectors are added to the index with the directives in the order of
registration, so what is found on an element comes in that order, each directive once.
-/

namespace ViewTemplates

namespace Registry

/-- The registry was filled by registrations. -/
inductive Built : Registry → Prop where
  | empty : Built .empty
  | register {registry next : Registry} {directive : Directive} {events : List Event} :
      Built registry → registry.register directive = .ok (next, events) → Built next

/-- The registry with one more directive, if its selector can be read. -/
def adding (registry : Registry) (directive : Directive) : Registry :=
  match registry.register directive with
  | .ok (next, _) => next
  | .error _ => registry

theorem Built.adding {registry : Registry} (built : registry.Built) (directive : Directive) :
    (registry.adding directive).Built := by
  unfold Registry.adding
  split
  next registered => exact .register built registered
  next => exact built

/-- The index holds the alternatives of all directives, in the order of registration. -/
theorem Built.added {registry : Registry} (built : registry.Built) :
    ∃ added, registry.index.Lists added ∧ (added.map Prod.snd).Pairwise (· ≤ ·) ∧
      ∀ selector index, (selector, index) ∈ added ↔
        ∃ directive selectors, registry.get? index = some directive ∧
          Selector.parse directive.selector = .ok selectors ∧ selector ∈ selectors := by
  induction built with
  | empty => exact ⟨[], .empty, .nil, fun _ _ => ⟨nofun, fun ⟨_, _, found, _⟩ => nomatch found⟩⟩
  | @register registry next directive events _ registered induction =>
      obtain ⟨added, lists, sorted, complete⟩ := induction
      rw [Registry.register] at registered
      split at registered
      · cases registered
      next selectors parsed =>
        cases registered
        refine ⟨_, lists.foldl_add selectors registry.size, ?_, fun selector index => ?_⟩
        · rw [List.map_append, List.map_map, List.pairwise_append]
          refine ⟨sorted, List.pairwise_map.mpr (List.pairwise_of_forall fun _ _ => Nat.le_refl _),
            ?_⟩
          intro old member new isNew
          obtain ⟨⟨selector, early⟩, inside, rfl⟩ := List.mem_map.mp member
          obtain ⟨_, _, rfl⟩ := List.mem_map.mp isNew
          obtain ⟨_, _, found, _⟩ := (complete selector early).mp inside
          exact Nat.le_of_lt (List.getElem?_eq_some_iff.mp found).1
        · rw [List.mem_append, complete, List.mem_map]
          constructor
          · rintro (⟨found, alternatives, known, read, inside⟩ | ⟨other, inside, equal⟩)
            · refine ⟨found, alternatives, ?_, read, inside⟩
              exact (List.getElem?_append_left (List.getElem?_eq_some_iff.mp known).1).trans known
            · cases equal
              exact ⟨directive, selectors, List.getElem?_concat_length, parsed, inside⟩
          · rintro ⟨found, alternatives, known, read, inside⟩
            rw [get?, List.getElem?_append] at known
            split at known
            next early => exact .inl ⟨found, alternatives, known, read, inside⟩
            next late =>
              obtain ⟨bound, only⟩ := List.getElem?_eq_some_iff.mp known
              rw [List.length_singleton] at bound
              rw [List.getElem_singleton] at only
              rw [only, read] at parsed
              cases parsed
              refine .inr ⟨selector, inside, ?_⟩
              rw [Registry.size]
              exact congrArg _ (by omega)

theorem mem_of_mem_dropRepeats {indices : List Nat} {index : Nat}
    (member : index ∈ dropRepeats indices) : index ∈ indices := by
  induction indices with
  | nil => exact member
  | cons first rest induction =>
      rw [dropRepeats] at member
      cases kept : dropRepeats rest with
      | nil =>
          rw [kept] at member
          rw [List.mem_singleton.mp member]
          exact List.mem_cons_self
      | cons next later =>
          rw [kept] at induction
          simp only [kept] at member
          split at member
          · exact List.mem_cons_of_mem _ (induction member)
          · rcases List.mem_cons.mp member with rfl | member
            · exact List.mem_cons_self
            · exact List.mem_cons_of_mem _ (induction member)

theorem ascending_dropRepeats {indices : List Nat} (sorted : indices.Pairwise (· ≤ ·)) :
    (dropRepeats indices).Pairwise (· < ·) := by
  induction indices with
  | nil => exact .nil
  | cons first rest induction =>
      obtain ⟨least, sortedRest⟩ := List.pairwise_cons.mp sorted
      have ascending := induction sortedRest
      rw [dropRepeats]
      cases kept : dropRepeats rest with
      | nil => exact List.pairwise_singleton _ _
      | cons next later =>
          rw [kept] at ascending
          simp only
          split
          · exact ascending
          next different =>
            have nextMember : next ∈ rest :=
              mem_of_mem_dropRepeats (kept ▸ List.mem_cons_self)
            have below : first < next := Nat.lt_of_le_of_ne (least next nextMember) different
            refine List.pairwise_cons.mpr ⟨fun other member => ?_, ascending⟩
            rcases List.mem_cons.mp member with rfl | member
            · exact below
            · exact Nat.lt_trans below ((List.pairwise_cons.mp ascending).1 other member)

/-- The directives on an element are found in the order of their registration. -/
theorem Built.ascending_matching {registry : Registry} (built : registry.Built) (name : String)
    (attributes : Attributes) :
    ((registry.matching name attributes).map Prod.fst).Pairwise (· < ·) := by
  obtain ⟨added, lists, sorted, _⟩ := built.added
  have ascending := ascending_dropRepeats
    (lists.sorted_lookup sorted (.ofElement name attributes))
  have number {index found : Nat}
      (entry : found ∈ ((registry.get? index).map (index, ·)).map Prod.fst) : found = index := by
    rw [Option.map_map, Option.mem_def, Option.map_eq_some_iff] at entry
    obtain ⟨_, _, equal⟩ := entry
    exact equal.symm
  rw [matching, List.map_filterMap]
  refine ascending.filterMap _ fun left right less found leftFound other rightFound => ?_
  rw [number leftFound, number rightFound]
  exact less

theorem Built.ascending_matchingNode {registry : Registry} (built : registry.Built)
    (kind : NodeKind) : ((registry.matchingNode kind).map Prod.fst).Pairwise (· < ·) := by
  cases kind with
  | element name attributes => exact built.ascending_matching name attributes
  | _ => exact .nil

end Registry

end ViewTemplates
