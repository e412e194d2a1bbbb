import ViewTemplates.Proofs.Outlet.Boards

/-!
Runs of calls on the outlets of a board. Every outlet keeps its order in front of its anchor if no
anchor is moved away from what is shown there. If no anchor is a node of a view, nothing comes in
between either.
-/

namespace ViewTemplates

theorem OutletCall.subset_of_behind {call : OutletCall} {row rest : List ViewId}
    (behind : call.behind row = some rest) : rest ⊆ row := by
  cases call with
  | append view => cases behind; exact List.nil_subset row
  | prepend view => cases behind; exact List.erase_subset
  | insertBefore view reference =>
      cases behind
      exact List.Subset.trans (List.dropWhile_suffix _).subset List.erase_subset
  | insertAfter view reference =>
      cases behind
      exact List.Subset.trans (List.tail_subset _)
        (List.Subset.trans (List.dropWhile_suffix _).subset List.erase_subset)
  | remove view => cases behind

namespace Board

variable {board : Board} {nodesOf : ViewId → List NodeId} {index other : Nat} {call : OutletCall}
  {outlet : Outlet}

/-- The call moves no anchor of another outlet that shows nodes. -/
def Spares (board : Board) (nodesOf : ViewId → List NodeId) (index : Nat) (call : OutletCall) :
    Prop :=
  ∀ other outlet, other ≠ index → board.outlets[other]? = some outlet →
    outlet.Spared nodesOf call.view.nodes

/-- No anchor is a node of a view. -/
def Plain (board : Board) (nodesOf : ViewId → List NodeId) : Prop :=
  ∀ outlet ∈ board.outlets, ∀ id, outlet.anchor ∉ nodesOf id

/-- What an outlet shows stands after a call if that is so for the outlets of other calls. -/
theorem forall_stands_after {relation : List NodeId → List NodeId → Prop}
    (standing : Standing relation) (separate : Separate nodesOf) (sound : board.Sound nodesOf)
    (admitted : board.Admits nodesOf index call)
    (stands : ∀ outlet ∈ board.outlets, outlet.Stands relation nodesOf board.doc)
    (others : ∀ other outlet, other ≠ index → board.outlets[other]? = some outlet →
      outlet.Stands relation nodesOf (board.after index call).doc) :
    ∀ outlet ∈ (board.after index call).outlets,
      outlet.Stands relation nodesOf (board.after index call).doc := by
  intro outlet member
  obtain ⟨place, found⟩ := List.getElem?_of_mem member
  by_cases same : place = index
  case neg =>
    rw [getElem?_after same] at found
    exact others place outlet same found
  case pos =>
    subst same
    cases there : board.outlets[place]? with
    | none =>
        rw [after_of_none there, there] at found
        cases found
    | some owner =>
        obtain ⟨used, -⟩ := List.getElem?_eq_some_iff.mp there
        rw [after_of_getElem? there] at found ⊢
        rw [List.getElem?_set_self used] at found
        cases found
        obtain ⟨sequence, sequenced⟩ := sound.sequenced there
        exact OutletCall.stands_after standing separate sound.wellFormed sequenced admitted.given
          admitted.used (stands owner (List.mem_of_getElem? there))

theorem Plain.spares (plain : board.Plain nodesOf) (admitted : board.Admits nodesOf index call) :
    board.Spares nodesOf index call := by
  intro other outlet _ there inside
  rw [← admitted.given _ call.view_mem_views] at inside
  exact absurd inside (plain outlet (List.mem_of_getElem? there) _)

theorem Plain.after (plain : board.Plain nodesOf) (sound : board.Sound nodesOf)
    (admitted : board.Admits nodesOf index call) : (board.after index call).Plain nodesOf := by
  cases there : board.outlets[index]? with
  | none =>
      rw [after_of_none there]
      exact plain
  | some owner =>
      obtain ⟨sequence, sequenced⟩ := sound.sequenced there
      rw [after_of_getElem? there]
      intro outlet member
      rcases List.mem_or_eq_of_mem_set member with old | rfl
      · exact plain outlet old
      · rw [OutletCall.anchor_after sequenced admitted.given]
        exact plain owner (List.mem_of_getElem? there)

/-- Without anchors in views, the target of a call is in no other region. -/
theorem Plain.notMem_stretch (plain : board.Plain nodesOf) (sound : board.Sound nodesOf)
    (disjoint : ∀ left right, left ≠ right → (nodesOf left).Disjoint (nodesOf right))
    (different : other ≠ index) (there : board.outlets[other]? = some outlet) :
    ∀ before ∈ board.target? nodesOf index call, before ∉ outlet.stretch nodesOf := by
  intro before found member
  obtain ⟨owner, acting, target⟩ := Option.bind_eq_some_iff.mp found
  obtain ⟨rest, behind, rfl⟩ := Option.map_eq_some_iff.mp target
  have apart := sound.exclusive.apart different.symm acting there
  have ownerListed := List.mem_of_getElem? acting
  have listed := List.mem_of_getElem? there
  rw [Outlet.stretch, List.mem_append, List.mem_singleton] at member
  cases head : (rest.flatMap nodesOf).head? with
  | none =>
      rw [head, Option.getD_none] at member
      rcases member with shown | same
      · obtain ⟨id, -, inside⟩ := List.mem_flatMap.mp shown
        exact plain owner ownerListed id inside
      · exact apart.anchors same
  | some node =>
      rw [head, Option.getD_some] at member
      obtain ⟨id, later, inside⟩ := List.mem_flatMap.mp (List.mem_of_head? head)
      have owned := OutletCall.subset_of_behind behind later
      rcases member with shown | same
      · obtain ⟨foreign, showing, belongs⟩ := List.mem_flatMap.mp shown
        have others : id ≠ foreign := fun same => apart.views id owned (same ▸ showing)
        exact disjoint id foreign others inside belongs
      · exact plain outlet listed id (same ▸ inside)

/-- All outlets show their views in order in front of their anchors. -/
structure Ordered (board : Board) (nodesOf : ViewId → List NodeId) : Prop where
  sound : board.Sound nodesOf
  precedes : ∀ outlet ∈ board.outlets, outlet.Precedes nodesOf board.doc

theorem Ordered.after (ordered : board.Ordered nodesOf) (separate : Separate nodesOf)
    (admitted : board.Admits nodesOf index call) (spares : board.Spares nodesOf index call) :
    (board.after index call).Ordered nodesOf := by
  refine ⟨ordered.sound.after admitted, ?_⟩
  apply forall_stands_after standing_sublist separate ordered.sound admitted ordered.precedes
  intro other outlet different there
  have undisturbed := ordered.sound.undisturbed separate.disjoint admitted different there
  exact undisturbed.precedes (spares other outlet different there)
    (ordered.precedes outlet (List.mem_of_getElem? there))

/-- All outlets show their views directly in front of their anchors, which no view holds. -/
structure Tight (board : Board) (nodesOf : ViewId → List NodeId) : Prop where
  sound : board.Sound nodesOf
  plain : board.Plain nodesOf
  adjoins : ∀ outlet ∈ board.outlets, outlet.Adjoins nodesOf board.doc

theorem Tight.after (tight : board.Tight nodesOf) (separate : Separate nodesOf)
    (admitted : board.Admits nodesOf index call) : (board.after index call).Tight nodesOf := by
  refine ⟨tight.sound.after admitted, tight.plain.after tight.sound admitted, ?_⟩
  apply forall_stands_after standing_isInfix separate tight.sound admitted tight.adjoins
  intro other outlet different there
  have undisturbed := tight.sound.undisturbed separate.disjoint admitted different there
  refine undisturbed.adjoins (tight.plain.spares admitted other outlet different there)
    (tight.adjoins outlet (List.mem_of_getElem? there)) ?_
  intro before found member
  exact tight.plain.notMem_stretch tight.sound separate.disjoint different there before found
    (List.mem_of_mem_tail member)

/-- The board after calls on its outlets. -/
def run (board : Board) (calls : List (Nat × OutletCall)) : Board :=
  calls.foldl (fun board (index, call) => board.after index call) board

/-- Every call is allowed on the board that it meets. -/
def Follows (allows : Board → Nat → OutletCall → Prop) : Board → List (Nat × OutletCall) → Prop
  | _, [] => True
  | board, (index, call) :: rest =>
      allows board index call ∧ Follows allows (board.after index call) rest

/-- What every allowed call keeps, a run keeps. -/
theorem Follows.run {allows : Board → Nat → OutletCall → Prop} {keeps : Board → Prop}
    (step : ∀ board index call, keeps board → allows board index call →
      keeps (board.after index call))
    {calls : List (Nat × OutletCall)} (follows : Follows allows board calls) (kept : keeps board) :
    keeps (board.run calls) := by
  induction calls generalizing board with
  | nil => exact kept
  | cons first rest induction =>
      obtain ⟨index, call⟩ := first
      obtain ⟨allowed, later⟩ := follows
      exact induction later (step board index call kept allowed)

/-- However the outlets are nested, all of them show their views in order if no call takes an anchor
away from what is shown in front of it. -/
theorem Ordered.run (ordered : board.Ordered nodesOf) (separate : Separate nodesOf)
    {calls : List (Nat × OutletCall)}
    (follows : Follows (fun board index call =>
      board.Admits nodesOf index call ∧ board.Spares nodesOf index call) board calls) :
    (board.run calls).Ordered nodesOf := by
  refine @Follows.run board _ (fun board => board.Ordered nodesOf) ?_ calls follows ordered
  rintro board index call ordered ⟨admitted, spares⟩
  exact ordered.after separate admitted spares

/-- If no anchor is in a view, all outlets show their views directly in front of their anchors. -/
theorem Tight.run (tight : board.Tight nodesOf) (separate : Separate nodesOf)
    {calls : List (Nat × OutletCall)}
    (follows : Follows (fun board index call => board.Admits nodesOf index call) board calls) :
    (board.run calls).Tight nodesOf := by
  refine @Follows.run board _ (fun board => board.Tight nodesOf) ?_ calls follows tight
  intro board index call tight admitted
  exact tight.after separate admitted

end Board

end ViewTemplates
