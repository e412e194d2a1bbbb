import ViewTemplates.Proofs.Compiler.Marking

/-!
Binders read off marks. Where every mark fits the origin of its node, the slots are the bound nodes
of a row, there is one binder for each element at which anything is bound, and its index is the
element's number in document order.
-/

namespace ViewTemplates

namespace Mark

theorem exists_of_mem_slotsFrom {marks : Forest (Mark φ)} {position : Nat} {slot : Slot φ}
    (member : slot ∈ slotsFrom position marks) :
    ∃ offset kind, slot.position = position + offset ∧
      marks.roots[offset]? = some (.slot kind slot.kind) := by
  induction marks generalizing position with
  | nil => cases member
  | cons mark below rest _ induction =>
      have later (member : slot ∈ slotsFrom (position + 1) rest) :
          ∃ offset kind, slot.position = position + offset ∧
            (Forest.cons mark below rest).roots[offset]? = some (.slot kind slot.kind) := by
        obtain ⟨offset, kind, place, found⟩ := induction member
        exact ⟨offset + 1, kind, by omega, found⟩
      cases mark with
      | slot kind slotKind =>
          rcases List.mem_cons.mp member with rfl | member
          · exact ⟨0, kind, rfl, rfl⟩
          · exact later member
      | element => exact later member
      | unbound => exact later member

theorem mem_slotsFrom_of_roots {marks : Forest (Mark φ)} {offset : Nat} {kind : NodeKind}
    {slotKind : SlotKind φ} (position : Nat)
    (found : marks.roots[offset]? = some (.slot kind slotKind)) :
    ⟨position + offset, slotKind⟩ ∈ slotsFrom position marks := by
  induction marks generalizing position offset with
  | nil => cases found
  | cons mark below rest _ induction =>
      cases offset with
      | zero =>
          cases found
          exact List.mem_cons_self
      | succ offset =>
          have member := induction (position + 1) found
          rw [Nat.add_assoc, Nat.add_comm 1] at member
          cases mark with
          | slot => exact List.mem_cons_of_mem _ member
          | element => exact member
          | unbound => exact member

theorem ascending_slotsFrom (marks : Forest (Mark φ)) (position : Nat) :
    ((slotsFrom position marks).map (·.position)).Pairwise (· < ·) := by
  induction marks generalizing position with
  | nil => exact .nil
  | cons mark below rest _ induction =>
      cases mark with
      | slot kind slotKind =>
          rw [slotsFrom, List.map_cons, List.pairwise_cons]
          refine ⟨fun other member => ?_, induction _⟩
          obtain ⟨slot, inside, rfl⟩ := List.mem_map.mp member
          obtain ⟨offset, _, place, _⟩ := exists_of_mem_slotsFrom inside
          change position < slot.position
          omega
      | element => exact induction _
      | unbound => exact induction _

/-! Binders with their indices. -/

/-- The binders of the elements at which anything is bound, the first element having the index. -/
def indexed (index : Nat) (binders : List (ElementBinder φ)) : List (ElementBinder φ) :=
  ((binders.zipIdx index).map fun (binder, index) =>
    { binder with elementIndex := some index }).filter ElementBinder.hasBindings

theorem binders_eq (decorators : List DirectiveRef) (marks : Forest (Mark φ)) :
    binders decorators marks =
      ⟨0, none, decorators, .decorated, slotsFrom 0 marks⟩ :: indexed 0 (bindersFrom 1 marks) :=
  rfl

theorem indexed_cons (index : Nat) (binder : ElementBinder φ) (rest : List (ElementBinder φ)) :
    indexed index (binder :: rest) =
      if binder.hasBindings then
        { binder with elementIndex := some index } :: indexed (index + 1) rest
      else indexed (index + 1) rest := by
  rw [indexed, List.zipIdx_cons, List.map_cons, List.filter_cons]
  rfl

theorem exists_of_mem_indexed {index : Nat} {binders : List (ElementBinder φ)}
    {binder : ElementBinder φ} (member : binder ∈ indexed index binders) :
    ∃ (offset : Nat) (found : ElementBinder φ), binders[offset]? = some found ∧
      found.hasBindings = true ∧ binder = { found with elementIndex := some (index + offset) } := by
  induction binders generalizing index with
  | nil => cases member
  | cons first rest induction =>
      have later (member : binder ∈ indexed (index + 1) rest) :
          ∃ (offset : Nat) (found : ElementBinder φ), (first :: rest)[offset]? = some found ∧
            found.hasBindings = true ∧
            binder = { found with elementIndex := some (index + offset) } := by
        obtain ⟨offset, found, atOffset, bound, equal⟩ := induction member
        refine ⟨offset + 1, found, atOffset, bound, ?_⟩
        rw [equal, Nat.add_assoc, Nat.add_comm 1]
      rw [indexed_cons] at member
      split at member
      next bound =>
        rcases List.mem_cons.mp member with rfl | member
        · exact ⟨0, first, rfl, bound, rfl⟩
        · exact later member
      next => exact later member

theorem mem_indexed {binders : List (ElementBinder φ)} {offset : Nat} {binder : ElementBinder φ}
    (index : Nat) (found : binders[offset]? = some binder) (bound : binder.hasBindings = true) :
    { binder with elementIndex := some (index + offset) } ∈ indexed index binders := by
  induction binders generalizing index offset with
  | nil => cases found
  | cons first rest induction =>
      rw [indexed_cons]
      cases offset with
      | zero =>
          cases found
          rw [if_pos bound]
          exact List.mem_cons_self
      | succ offset =>
          have member := induction (index + 1) found
          rw [Nat.add_assoc, Nat.add_comm 1] at member
          split
          · exact List.mem_cons_of_mem _ member
          · exact member

theorem ascending_indexed (index : Nat) (binders : List (ElementBinder φ)) :
    ∃ indices : List Nat, (indexed index binders).map (·.elementIndex) = indices.map some ∧
      indices.Pairwise (· < ·) ∧ ∀ other ∈ indices, index ≤ other := by
  induction binders generalizing index with
  | nil => exact ⟨[], rfl, .nil, nofun⟩
  | cons first rest induction =>
      obtain ⟨indices, equal, ascending, bounded⟩ := induction (index + 1)
      rw [indexed_cons]
      split
      · refine ⟨index :: indices, ?_, List.pairwise_cons.mpr ⟨bounded, ascending⟩, ?_⟩
        · rw [List.map_cons, List.map_cons, equal]
        · intro other member
          rcases List.mem_cons.mp member with rfl | member
          · exact Nat.le_refl _
          · exact Nat.le_of_succ_le (bounded other member)
      · exact ⟨indices, equal, ascending, fun other member =>
          Nat.le_of_succ_le (bounded other member)⟩

/-! Binders and the nodes that they are about. -/

/-- The role and the slots of the binder are those of marked nodes. -/
structure Yields (marks : Forest (Mark φ)) (binder : ElementBinder φ) : Prop where
  role : binder.role = .decorated ∨
    ∃ kind decorators, .element kind decorators binder.role ∈ marks.preorder
  slots : ∀ slot ∈ binder.slots, ∃ kind, .slot kind slot.kind ∈ marks.preorder

theorem Yields.mono {marks more : Forest (Mark φ)} {binder : ElementBinder φ}
    (yields : Yields marks binder) (subset : marks.preorder ⊆ more.preorder) :
    Yields more binder where
  role := yields.role.imp_right fun ⟨kind, decorators, member⟩ =>
    ⟨kind, decorators, subset member⟩
  slots slot inside := by
    obtain ⟨kind, member⟩ := yields.slots slot inside
    exact ⟨kind, subset member⟩

theorem exists_mem_preorder_of_slot {marks : Forest (Mark φ)} {position : Nat} {slot : Slot φ}
    (member : slot ∈ slotsFrom position marks) :
    ∃ kind, .slot kind slot.kind ∈ marks.preorder := by
  obtain ⟨_, kind, _, found⟩ := exists_of_mem_slotsFrom member
  exact ⟨kind, (Forest.roots_sublist_preorder marks).subset (List.mem_of_getElem? found)⟩

theorem yields_of_mem_bindersFrom {marks : Forest (Mark φ)} {level : Nat}
    {binder : ElementBinder φ} (member : binder ∈ bindersFrom level marks) :
    Yields marks binder := by
  induction marks generalizing level with
  | nil => cases member
  | cons mark below rest inner outer =>
      have lower : below.preorder ⊆ (Forest.cons mark below rest).preorder :=
        fun _ found => List.mem_cons_of_mem _ (List.mem_append_left _ found)
      have later : rest.preorder ⊆ (Forest.cons mark below rest).preorder :=
        fun _ found => List.mem_cons_of_mem _ (List.mem_append_right _ found)
      cases mark with
      | element kind decorators role =>
          rcases List.mem_cons.mp member with rfl | member
          · refine ⟨.inr ⟨kind, decorators, List.mem_cons_self⟩, fun slot inside => ?_⟩
            obtain ⟨kind, found⟩ := exists_mem_preorder_of_slot inside
            exact ⟨kind, lower found⟩
          rcases List.mem_append.mp member with member | member
          · exact (inner member).mono lower
          · exact (outer member).mono later
      | slot => exact (outer member).mono later
      | unbound => exact (outer member).mono later

theorem yields_of_mem_binders {marks : Forest (Mark φ)} {decorators : List DirectiveRef}
    {binder : ElementBinder φ} (member : binder ∈ binders decorators marks) :
    Yields marks binder := by
  rw [binders_eq] at member
  rcases List.mem_cons.mp member with rfl | member
  · exact ⟨.inl rfl, fun slot inside => exists_mem_preorder_of_slot inside⟩
  · obtain ⟨_, found, atOffset, _, rfl⟩ := exists_of_mem_indexed member
    have yields := yields_of_mem_bindersFrom (List.mem_of_getElem? atOffset)
    exact ⟨yields.role, yields.slots⟩

end Mark

namespace Setup

variable {setup : Setup} {compiles : List DirectiveRef → Forest NodeKind → Factory → Prop}
  {viewed : ComponentSource → Factory → Prop}

theorem isBound_of_isElement (setup : Setup) {kind : NodeKind} (isElement : kind.isElement = true) :
    setup.isBound (.kept kind) = false := by
  cases kind with
  | element => rfl
  | _ => cases isElement

theorem bare_origins (setup : Setup) {source : Forest NodeKind}
    (bare : source.Bare NodeKind.isElement) : (setup.origins source).Bare Origin.isElement := by
  induction source with
  | nil => trivial
  | cons kind below rest inner outer =>
      obtain ⟨bottom, bareBelow, bareRest⟩ := bare
      rw [origins_cons, origins_tree]
      refine Forest.Bare.append ?_ (outer bareRest)
      split
      · refine ⟨fun leaf => ?_, inner bareBelow, trivial⟩
        rw [bottom leaf]
        rfl
      next claimed =>
        have isElement : kind.isElement = true := by
          cases leaf : kind.isElement with
          | true => rfl
          | false =>
              rw [template?, setup.claims_of_not_isElement leaf] at claimed
              cases claimed
        split
        · exact .leaf _ _
        · refine ⟨fun leaf => ?_, .leaf _ _, trivial⟩
          rw [Origin.isElement, isElement] at leaf
          cases leaf

namespace MarkFits

theorem kind_eq {origin : Origin} {mark : Mark Factory}
    (fits : setup.MarkFits compiles viewed origin mark) : setup.kindOf origin = mark.kind := by
  cases fits <;> rfl

theorem slotFits {origin : Origin} {kind : NodeKind} {slotKind : SlotKind Factory}
    (fits : setup.MarkFits compiles viewed origin (.slot kind slotKind)) :
    setup.SlotFits origin slotKind := by
  cases fits with
  | instead claimed _ => exact .anchor claimed
  | text bound => exact .text bound

theorem slot_of_isBound {origin : Origin} {mark : Mark Factory}
    (fits : setup.MarkFits compiles viewed origin mark) (bound : setup.isBound origin = true) :
    ∃ kind slotKind, mark = .slot kind slotKind := by
  cases fits with
  | decorated isElement =>
      rw [setup.isBound_of_isElement isElement] at bound
      cases bound
  | component isElement =>
      rw [setup.isBound_of_isElement isElement] at bound
      cases bound
  | emptied => cases bound
  | inside => cases bound
  | instead => exact ⟨_, _, rfl⟩
  | text => exact ⟨_, _, rfl⟩
  | unbound _ unbound =>
      rw [unbound] at bound
      cases bound

theorem isBound_of_slot {origin : Origin} {kind : NodeKind} {slotKind : SlotKind Factory}
    (fits : setup.MarkFits compiles viewed origin (.slot kind slotKind)) :
    setup.isBound origin = true := by
  cases fits with
  | instead => rfl
  | text bound => exact bound

theorem isElement_of_element {origin : Origin} {kind : NodeKind} {decorators : List DirectiveRef}
    {role : Role Factory}
    (fits : setup.MarkFits compiles viewed origin (.element kind decorators role)) :
    origin.isElement = true := by
  cases fits with
  | decorated isElement => exact isElement
  | component isElement => exact isElement
  | emptied isElement => exact isElement

theorem element_of_isElement {origin : Origin} {mark : Mark Factory}
    (fits : setup.MarkFits compiles viewed origin mark) (isElement : origin.isElement = true) :
    ∃ kind decorators role, mark = .element kind decorators role := by
  cases fits with
  | decorated => exact ⟨_, _, _, rfl⟩
  | component => exact ⟨_, _, _, rfl⟩
  | emptied => exact ⟨_, _, _, rfl⟩
  | unbound leaf =>
      rw [Origin.isElement, leaf] at isElement
      cases isElement
  | inside => cases isElement
  | instead => cases isElement
  | text => cases isElement

end MarkFits

/-- The binder says what the mark of an element and the marks right below it say. -/
inductive ReadOff (setup : Setup)
    (compiles : List DirectiveRef → Forest NodeKind → Factory → Prop)
    (viewed : ComponentSource → Factory → Prop) :
    Forest.Site Origin → ElementBinder Factory → Prop where
  | intro {level : Nat} {origin : Origin} {row : List Origin} {kind : NodeKind}
      {decorators : List DirectiveRef} {role : Role Factory} {below : Forest (Mark Factory)} :
      setup.MarkFits compiles viewed origin (.element kind decorators role) →
      List.Forall₂ (setup.MarkFits compiles viewed) row below.roots →
      ReadOff setup compiles viewed ⟨level, origin, row⟩
        ⟨level, none, decorators, role, Mark.slotsFrom 0 below⟩

theorem bindersFrom_readOff {origins : Forest Origin} {marks : Forest (Mark Factory)}
    (aligned : Forest.Aligned (setup.MarkFits compiles viewed) origins marks)
    (bare : origins.Bare Origin.isElement) (level : Nat) :
    List.Forall₂ (setup.ReadOff compiles viewed)
      ((origins.sites level).filter fun site => site.value.isElement)
      (Mark.bindersFrom level marks) := by
  induction aligned generalizing level with
  | nil => exact .nil
  | @cons origin mark below rest innerMarks outerMarks head belowAligned _ inner outer =>
      obtain ⟨bottom, bareBelow, bareRest⟩ := bare
      cases isElement : origin.isElement with
      | true =>
          obtain ⟨kind, decorators, role, rfl⟩ := head.element_of_isElement isElement
          rw [Forest.sites, List.filter_cons_of_pos (by exact isElement), List.filter_append,
            Mark.bindersFrom]
          exact .cons (.intro head belowAligned.roots)
            (List.rel_append (inner bareBelow _) (outer bareRest _))
      | false =>
          obtain rfl := bottom isElement
          rw [Forest.sites, List.filter_cons_of_neg (by simp [isElement])]
          cases mark with
          | element =>
              rw [head.isElement_of_element] at isElement
              cases isElement
          | slot => exact outer bareRest level
          | unbound => exact outer bareRest level

/-! What the binders read off a template hold. -/

theorem matchingNode_ne_nil_iff (setup : Setup) (kind : NodeKind) :
    setup.registry.matchingNode kind ≠ [] ↔
      setup.decorators kind ≠ [] ∨ setup.claims kind ≠ [] := by
  rw [decorators, claims]
  generalize setup.registry.matchingNode kind = directives
  cases directives with
  | nil => simp [decoratorsOf, claimsOf]
  | cons entry rest =>
      obtain ⟨index, directive⟩ := entry
      cases claimed : Claim.ofDirective? index directive <;>
        simp [decoratorsOf, claimsOf, claimed]

section row
variable {row : List Origin} {below : Forest (Mark Factory)}
  (aligned : List.Forall₂ (setup.MarkFits compiles viewed) row below.roots)
include aligned

theorem slotsFit_of_aligned : setup.SlotsFit row (Mark.slotsFrom 0 below) where
  ascending := Mark.ascending_slotsFrom below 0
  complete := by
    intro position origin found bound
    obtain ⟨mark, marked, fits⟩ := Forest.getElem?_of_forall₂ aligned found
    obtain ⟨kind, slotKind, rfl⟩ := fits.slot_of_isBound bound
    exact ⟨_, Mark.mem_slotsFrom_of_roots 0 marked, Nat.zero_add _⟩
  sound := by
    intro slot member
    obtain ⟨offset, kind, place, marked⟩ := Mark.exists_of_mem_slotsFrom member
    obtain ⟨origin, found, fits⟩ := Forest.getElem?_of_forall₂ aligned.flip marked
    rw [place, Nat.zero_add]
    exact ⟨origin, found, fits.slotFits⟩

theorem slots_ne_nil_iff :
    Mark.slotsFrom 0 below ≠ [] ↔ ∃ origin ∈ row, setup.isBound origin = true := by
  constructor
  · intro bound
    obtain ⟨slot, member⟩ := List.exists_mem_of_ne_nil _ bound
    obtain ⟨offset, kind, _, marked⟩ := Mark.exists_of_mem_slotsFrom member
    obtain ⟨origin, found, fits⟩ := Forest.getElem?_of_forall₂ aligned.flip marked
    exact ⟨origin, List.mem_of_getElem? found, fits.isBound_of_slot⟩
  · rintro ⟨origin, member, bound⟩
    obtain ⟨position, found⟩ := List.mem_iff_getElem?.mp member
    obtain ⟨slot, inside, _⟩ := (slotsFit_of_aligned aligned).complete position origin found bound
    exact List.ne_nil_of_mem inside

/-- The view in an anchor's slot was made from the content of the template element. -/
theorem compiles_of_slot {slot : Slot Factory} (member : slot ∈ Mark.slotsFrom 0 below)
    {kind : NodeKind} {content : Forest NodeKind} {binding : Binding Factory}
    (found : row[slot.position]? = some (.instead kind content))
    (anchored : slot.kind = .anchor binding) :
    compiles (setup.decorators kind) content binding.view := by
  obtain ⟨offset, markKind, place, marked⟩ := Mark.exists_of_mem_slotsFrom member
  obtain ⟨mark, again, fits⟩ := Forest.getElem?_of_forall₂ aligned found
  rw [place, Nat.zero_add, marked, anchored] at again
  cases again
  cases fits with
  | instead _ made => exact made

end row

theorem ReadOff.hasBindings_iff {site : Forest.Site Origin} {binder : ElementBinder Factory}
    (readOff : setup.ReadOff compiles viewed site binder) :
    binder.hasBindings = true ↔ setup.IsBoundSite site := by
  obtain ⟨fits, aligned⟩ := readOff
  rename_i below
  have slots := slots_ne_nil_iff aligned
  rw [IsBoundSite, matchingNode_ne_nil_iff, ← slots]
  cases fits with
  | decorated _ unclaimed =>
      simp [ElementBinder.hasBindings, Role.binding?, kindOf, unclaimed]
  | component _ claimed => simp [ElementBinder.hasBindings, Role.binding?, kindOf, claimed]
  | emptied _ claimed => simp [ElementBinder.hasBindings, Role.binding?, kindOf, claimed]

end Setup

end ViewTemplates
