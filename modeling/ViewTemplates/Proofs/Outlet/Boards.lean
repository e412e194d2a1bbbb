import ViewTemplates.Proofs.Outlet.Standing

/-!
Several outlets in one document. The anchor of one may be a node of a view in another, and then the
two regions meet: a call on one outlet may put nodes between those of the other, or carry the anchor
of the other away. Nothing else can happen to an outlet by calls on others.
-/

namespace ViewTemplates

/-- The outlets have different anchors and no view in common. -/
structure Outlet.Apart (left right : Outlet) : Prop where
  anchors : left.anchor ≠ right.anchor
  views : ∀ id ∈ left.views, id ∉ right.views

theorem Outlet.Apart.symm {left right : Outlet} (apart : left.Apart right) : right.Apart left where
  anchors := apart.anchors.symm
  views := fun id shown inside => apart.views id inside shown

instance (left right : Outlet) : Decidable (left.Apart right) :=
  decidable_of_iff (left.anchor ≠ right.anchor ∧ ∀ id ∈ left.views, id ∉ right.views)
    ⟨fun ⟨anchors, views⟩ => ⟨anchors, views⟩, fun apart => ⟨apart.anchors, apart.views⟩⟩

/-- A document and the outlets in it. -/
structure Board where
  doc : Document
  outlets : List Outlet

namespace Board

def Exclusive (board : Board) : Prop := board.outlets.Pairwise Outlet.Apart

instance (board : Board) : Decidable board.Exclusive :=
  inferInstanceAs (Decidable (List.Pairwise _ _))

/-- The board after a call on one of its outlets. -/
def after (board : Board) (index : Nat) (call : OutletCall) : Board :=
  match board.outlets[index]? with
  | none => board
  | some outlet =>
      ⟨(OutletState.after ⟨board.doc, outlet⟩ call).doc,
        board.outlets.set index (OutletState.after ⟨board.doc, outlet⟩ call).outlet⟩

/-- The node in front of which the call puts the nodes of its view. -/
def target? (board : Board) (nodesOf : ViewId → List NodeId) (index : Nat) (call : OutletCall) :
    Option NodeId :=
  board.outlets[index]?.bind fun outlet => call.target? nodesOf outlet

/-- The call is given views with these nodes, and it puts no view into two outlets. -/
structure Admits (board : Board) (nodesOf : ViewId → List NodeId) (index : Nat)
    (call : OutletCall) : Prop where
  given : ∀ view ∈ call.views, nodesOf view.id = view.nodes
  used : ∀ node ∈ call.view.nodes, node < board.doc.size
  exclusive : (board.after index call).Exclusive

/-- Boards made by calls on their outlets, whatever else happens to the document. -/
inductive Reached (nodesOf : ViewId → List NodeId) : Board → Prop where
  | start {doc : Document} : doc.WellFormed → Reached nodesOf ⟨doc, []⟩
  | edited {board : Board} {doc : Document} :
      Reached nodesOf board → doc.WellFormed → Reached nodesOf ⟨doc, board.outlets⟩
  | opened {board : Board} {anchor : NodeId} {outlet : Outlet} :
      Reached nodesOf board → Outlet.new board.doc anchor = .ok outlet →
      Exclusive ⟨board.doc, board.outlets ++ [outlet]⟩ →
      Reached nodesOf ⟨board.doc, board.outlets ++ [outlet]⟩
  | called {board : Board} {index : Nat} {call : OutletCall} :
      Reached nodesOf board → board.Admits nodesOf index call →
      Reached nodesOf (board.after index call)

variable {board : Board} {nodesOf : ViewId → List NodeId} {index other : Nat} {call : OutletCall}
  {outlet : Outlet}

theorem Exclusive.apart (exclusive : board.Exclusive) (different : index ≠ other)
    {left right : Outlet} (first : board.outlets[index]? = some left)
    (second : board.outlets[other]? = some right) : left.Apart right := by
  obtain ⟨firstUsed, rfl⟩ := List.getElem?_eq_some_iff.mp first
  obtain ⟨secondUsed, rfl⟩ := List.getElem?_eq_some_iff.mp second
  rcases Nat.lt_or_gt_of_ne different with before | behind
  · exact List.pairwise_iff_getElem.mp exclusive _ _ _ _ before
  · exact (List.pairwise_iff_getElem.mp exclusive _ _ _ _ behind).symm

theorem after_of_getElem? (there : board.outlets[index]? = some outlet) :
    board.after index call = ⟨(OutletState.after ⟨board.doc, outlet⟩ call).doc,
      board.outlets.set index (OutletState.after ⟨board.doc, outlet⟩ call).outlet⟩ := by
  rw [after, there]

theorem after_of_none (absent : board.outlets[index]? = none) : board.after index call = board := by
  rw [after, absent]

theorem getElem?_after (different : other ≠ index) :
    (board.after index call).outlets[other]? = board.outlets[other]? := by
  rw [after]
  split
  · rfl
  · exact List.getElem?_set_ne different.symm

/-- What holds of all boards that are made by calls. -/
structure Sound (board : Board) (nodesOf : ViewId → List NodeId) : Prop where
  wellFormed : board.doc.WellFormed
  reached : ∀ outlet ∈ board.outlets, outlet.Reached nodesOf
  exclusive : board.Exclusive

theorem Sound.after (sound : board.Sound nodesOf) (admitted : board.Admits nodesOf index call) :
    (board.after index call).Sound nodesOf := by
  cases there : board.outlets[index]? with
  | none =>
      rw [after_of_none there]
      exact sound
  | some outlet =>
      have exclusive := admitted.exclusive
      rw [after_of_getElem? there] at exclusive ⊢
      refine ⟨OutletCall.wellFormed_after sound.wellFormed call admitted.used, ?_, exclusive⟩
      intro changed member
      rcases List.mem_or_eq_of_mem_set member with old | rfl
      · exact sound.reached changed old
      · exact .call call (sound.reached outlet (List.mem_of_getElem? there)) admitted.given

theorem Reached.sound (reached : board.Reached nodesOf) : board.Sound nodesOf := by
  induction reached with
  | start wellFormed => exact ⟨wellFormed, nofun, .nil⟩
  | edited _ wellFormed sound => exact ⟨wellFormed, sound.reached, sound.exclusive⟩
  | opened _ created exclusive sound =>
      refine ⟨sound.wellFormed, ?_, exclusive⟩
      intro outlet member
      rcases List.mem_append.mp member with old | new
      · exact sound.reached outlet old
      · rw [List.mem_singleton.mp new]
        exact .new created
  | called _ admitted sound => exact sound.after admitted

theorem Sound.sequenced (sound : board.Sound nodesOf)
    (there : board.outlets[index]? = some outlet) :
    ∃ sequence, (OutletState.mk board.doc outlet).outlet.Sequenced nodesOf sequence :=
  (sound.reached outlet (List.mem_of_getElem? there)).sequenced

/-! What a call does to the other outlets. -/

theorem shifts_after (sound : board.Sound nodesOf) (admitted : board.Admits nodesOf index call) :
    board.doc.Shifts (board.after index call).doc call.view.nodes
      (board.target? nodesOf index call) := by
  cases there : board.outlets[index]? with
  | none =>
      rw [after_of_none there]
      exact .refl
  | some outlet =>
      obtain ⟨sequence, sequenced⟩ := sound.sequenced there
      rw [after_of_getElem? there, target?, there]
      exact (OutletCall.shifts sound.wellFormed sequenced admitted.given admitted.used).shifts

/-- The view of a call that changes something is in the outlet before it or after it. -/
theorem held_of_after (sound : board.Sound nodesOf) (admitted : board.Admits nodesOf index call)
    (there : board.outlets[index]? = some outlet) :
    OutletState.after ⟨board.doc, outlet⟩ call = ⟨board.doc, outlet⟩ ∨
      call.view.id ∈ outlet.views ∨
      call.view.id ∈ (OutletState.after ⟨board.doc, outlet⟩ call).outlet.views := by
  obtain ⟨sequence, sequenced⟩ := sound.sequenced there
  rw [OutletState.after]
  cases OutletCall.course sequenced admitted.given with
  | refused _ run =>
      rw [run]
      exact .inl rfl
  | removed member _ => exact .inr (.inl (sequenced.views_eq ▸ member))
  | @placed _ left right parent _ split _ _ fits run =>
      have taken := sequenced.taken call.view
      rw [split] at taken
      rw [run]
      cases inserted : Outlet.insertBetween call.view left.getLast? right.head?
          (OutletState.taken ⟨board.doc, outlet⟩ call.view) with
      | ok value next =>
          rcases Outlet.insertBetween_cases fits.taken call.view left.getLast? right.head? with
            ⟨doc, _, placed⟩ | ⟨fault, doc, _, failed⟩
          · rw [placed] at inserted
            cases inserted
            have linked := taken.link_between (split ▸ sequenced.nodup.not_mem_erase)
              (admitted.given _ call.view_mem_views)
            refine .inr (.inr ?_)
            rw [linked.views_eq]
            simp
          · rw [failed] at inserted
            cases inserted
      | error error next =>
          -- A view that was not in the outlet has not been taken out of it either.
          obtain ⟨-, -, kept⟩ :=
            fits.of_insertBetween_failure sound.wellFormed admitted.used inserted
          by_cases member : call.view.id ∈ sequence
          · exact .inr (.inl (sequenced.views_eq ▸ member))
          · exact .inl (kept.trans (sequenced.taken_of_notMem member))

/-- Since no view is in two outlets, a call that changes something does not move what another outlet
shows. -/
theorem notMem_of_shown
    (disjoint : ∀ left right, left ≠ right → (nodesOf left).Disjoint (nodesOf right))
    (sound : board.Sound nodesOf) (admitted : board.Admits nodesOf index call)
    (different : other ≠ index) (there : board.outlets[other]? = some outlet) :
    board.after index call = board ∨ ∀ node ∈ outlet.shown nodesOf, node ∉ call.view.nodes := by
  cases acting : board.outlets[index]? with
  | none => exact .inl (after_of_none acting)
  | some owner =>
      obtain ⟨used, getElem⟩ := List.getElem?_eq_some_iff.mp acting
      have foreign (absent : call.view.id ∉ outlet.views) :
          ∀ node ∈ outlet.shown nodesOf, node ∉ call.view.nodes := by
        intro node shown inside
        obtain ⟨id, member, belongs⟩ := List.mem_flatMap.mp shown
        have apart : id ≠ call.view.id := fun same => absent (same ▸ member)
        rw [← admitted.given _ call.view_mem_views] at inside
        exact disjoint id call.view.id apart belongs inside
      rcases held_of_after sound admitted acting with same | before | behind
      · refine .inl ?_
        rw [after_of_getElem? acting, same, ← getElem, List.set_getElem_self]
      · exact .inr (foreign ((sound.exclusive.apart different.symm acting there).views _ before))
      · refine .inr (foreign (Outlet.Apart.views ?_ _ behind))
        apply admitted.exclusive.apart different.symm
        · rw [after_of_getElem? acting, List.getElem?_set_self used]
        · rw [getElem?_after different, there]

end Board

namespace Outlet

variable {outlet : Outlet} {nodesOf : ViewId → List NodeId} {nodes : List NodeId}
  {target : Option NodeId} {doc next : Document}

/-- Nothing is shown in front of an anchor that is one of these nodes. -/
def Spared (outlet : Outlet) (nodesOf : ViewId → List NodeId) (nodes : List NodeId) : Prop :=
  outlet.anchor ∈ nodes → outlet.shown nodesOf = []

/-- What stays of an outlet when given nodes leave the rows or are put in front of a target. -/
structure Undisturbed (outlet : Outlet) (nodesOf : ViewId → List NodeId) (nodes : List NodeId)
    (target : Option NodeId) (doc next : Document) : Prop where
  row : ∀ parent, (outlet.shown nodesOf).Sublist (doc.children parent) →
    (outlet.shown nodesOf).Sublist (next.children parent)
  precedes : outlet.Spared nodesOf nodes → outlet.Precedes nodesOf doc →
    outlet.Precedes nodesOf next
  between : outlet.Spared nodesOf nodes → outlet.Adjoins nodesOf doc →
    outlet.shown nodesOf ≠ [] → outlet.stretch nodesOf <:+:
      (next.siblings outlet.anchor).filter fun node =>
        node ∈ outlet.stretch nodesOf ∨ node ∉ nodes
  adjoins : outlet.Spared nodesOf nodes → outlet.Adjoins nodesOf doc →
    (∀ before ∈ target, before ∉ (outlet.stretch nodesOf).tail) → outlet.Adjoins nodesOf next

theorem Undisturbed.refl : outlet.Undisturbed nodesOf nodes target doc doc where
  row := fun _ order => order
  precedes := fun _ order => order
  between := by
    intro _ side shown
    have kept := (side shown).filter fun node => node ∈ outlet.stretch nodesOf ∨ node ∉ nodes
    rwa [List.filter_eq_self.mpr fun node member => by simp [member]] at kept
  adjoins := fun _ side _ => side

theorem Undisturbed.of_shifts (shifts : doc.Shifts next nodes target)
    (apart : ∀ node ∈ outlet.shown nodesOf, node ∉ nodes) :
    outlet.Undisturbed nodesOf nodes target doc next := by
  have foreign (spared : outlet.Spared nodesOf nodes) (shown : outlet.shown nodesOf ≠ []) :
      ∀ node ∈ outlet.stretch nodesOf, node ∉ nodes := by
    intro node member
    rcases List.mem_append.mp member with inner | anchor
    · exact apart node inner
    · rw [List.mem_singleton.mp anchor]
      exact fun inside => shown (spared inside)
  have siblings (spared : outlet.Spared nodesOf nodes) (shown : outlet.shown nodesOf ≠ []) :
      Shifted nodes target (doc.siblings outlet.anchor) (next.siblings outlet.anchor) :=
    shifts.siblings fun inside => shown (spared inside)
  constructor
  case row => exact fun parent order => (shifts.children parent).sublist apart order
  case precedes =>
    intro spared order shown
    exact (siblings spared shown).sublist (foreign spared shown) (order shown)
  case between =>
    intro spared side shown
    have others : (fun node => decide (node ∈ outlet.stretch nodesOf ∨ node ∉ nodes)) =
        fun node => decide (node ∉ nodes) := by
      funext node
      have moved := foreign spared shown node
      by_cases member : node ∈ outlet.stretch nodesOf
      · simp [member, moved member]
      · simp [member]
    rw [others]
    exact (siblings spared shown).isInfix_filter (foreign spared shown) (side shown)
  case adjoins =>
    intro spared side outside shown
    exact (siblings spared shown).isInfix (foreign spared shown) outside (side shown)

end Outlet

namespace Board

variable {board : Board} {nodesOf : ViewId → List NodeId} {index other : Nat} {call : OutletCall}
  {outlet : Outlet}

theorem Sound.undisturbed (sound : board.Sound nodesOf)
    (disjoint : ∀ left right, left ≠ right → (nodesOf left).Disjoint (nodesOf right))
    (admitted : board.Admits nodesOf index call) (different : other ≠ index)
    (there : board.outlets[other]? = some outlet) :
    outlet.Undisturbed nodesOf call.view.nodes (board.target? nodesOf index call)
      board.doc (board.after index call).doc := by
  rcases notMem_of_shown disjoint sound admitted different there with same | apart
  · rw [same]
    exact .refl
  · exact .of_shifts (shifts_after sound admitted) apart

end Board

/-- A call on one outlet leaves the sequence of every other one as it is, and all that it shows in
its row and in its order. The anchor stays behind it unless the call moves that, and nothing gets in
between but the nodes of the call, which it puts in front of one node. -/
theorem Board.undisturbed_of_reached {nodesOf : ViewId → List NodeId}
    (disjoint : ∀ left right, left ≠ right → (nodesOf left).Disjoint (nodesOf right))
    {board : Board} (reached : board.Reached nodesOf) {index : Nat} {call : OutletCall}
    (admitted : board.Admits nodesOf index call) {other : Nat} (different : other ≠ index)
    {outlet : Outlet} (there : board.outlets[other]? = some outlet) :
    (board.after index call).outlets[other]? = some outlet ∧
      outlet.Undisturbed nodesOf call.view.nodes (board.target? nodesOf index call)
        board.doc (board.after index call).doc := by
  rw [getElem?_after different]
  exact ⟨there, reached.sound.undisturbed disjoint admitted different there⟩

/-! Two outlets, on the comments of two fragments. The second comment and two texts are the nodes of
views. -/

namespace Board

def nodesOfThree (id : ViewId) : List NodeId := if id < 3 then [id + 3] else []

theorem disjoint_nodesOfThree :
    ∀ left right, left ≠ right → (nodesOfThree left).Disjoint (nodesOfThree right) := by
  intro left right different node first second
  simp only [nodesOfThree] at first second
  split at first <;> split at second <;> simp_all

def innerAnchor : View := ⟨0, [3], []⟩

def innerText : View := ⟨1, [4], []⟩

def outerText : View := ⟨2, [5], []⟩

def pair : Board :=
  ⟨⟨#[⟨.fragment, none, [1]⟩, ⟨.comment "a", some 0, []⟩, ⟨.fragment, none, [3]⟩,
    ⟨.comment "b", some 2, []⟩, ⟨.text "w", none, []⟩, ⟨.text "u", none, []⟩]⟩,
    [⟨1, [], none, none⟩, ⟨3, [], none, none⟩]⟩

/-- The inner outlet shows a text in front of its anchor. -/
def filled : Board := pair.after 1 (.append innerText)

/-- The outer outlet shows a text and the anchor of the inner one. -/
def nested : Board := (pair.after 0 (.append outerText)).after 0 (.append innerAnchor)

theorem wellFormed_pair : pair.doc.WellFormed := by
  have created := (((((Document.WellFormed.empty.create .fragment).create (.comment "a")).create
    .fragment).create (.comment "b")).create (.text "w")).create (.text "u")
  have first := created.insertBefore (by decide) (by decide)
    (rfl : Document.insertBefore _ 0 1 none = .ok _)
  exact first.insertBefore (by decide) (by decide)
    (rfl : Document.insertBefore _ 2 3 none = .ok pair.doc)

theorem reached_pair : pair.Reached nodesOfThree := by
  have outer := (@Reached.start nodesOfThree _ wellFormed_pair).opened
    (rfl : Outlet.new pair.doc 1 = .ok ⟨1, [], none, none⟩) (by decide)
  exact outer.opened (rfl : Outlet.new pair.doc 3 = .ok ⟨3, [], none, none⟩) (by decide)

theorem admits_filled : pair.Admits nodesOfThree 1 (.append innerText) :=
  ⟨by decide, by decide, by decide⟩

theorem reached_filled : filled.Reached nodesOfThree := reached_pair.called admits_filled

theorem reached_nested : nested.Reached nodesOfThree := by
  have texted := reached_pair.called
    (⟨by decide, by decide, by decide⟩ : pair.Admits nodesOfThree 0 (.append outerText))
  exact texted.called ⟨by decide, by decide, by decide⟩

theorem undisturbed_of_reached_nested :
    nested.Reached nodesOfThree ∧ nested.Admits nodesOfThree 1 (.append innerText) ∧
      ∃ outlet, nested.outlets[0]? = some outlet ∧
        (nested.after 1 (.append innerText)).outlets[0]? = some outlet ∧
        outlet.Undisturbed nodesOfThree [4] (nested.target? nodesOfThree 1 (.append innerText))
          nested.doc (nested.after 1 (.append innerText)).doc := by
  have admitted : nested.Admits nodesOfThree 1 (.append innerText) :=
    ⟨by decide, by decide, by decide⟩
  exact ⟨reached_nested, admitted, _, rfl,
    undisturbed_of_reached disjoint_nodesOfThree reached_nested admitted (by decide) rfl⟩

/-- The outer outlet carries the anchor of the inner one away from its text, and the inner outlet
puts its text between the text and the anchor of the outer one. -/
theorem disturbed_by_nesting :
    (∃ outlet, filled.Reached nodesOfThree ∧ filled.outlets[1]? = some outlet ∧
        filled.Admits nodesOfThree 0 (.append innerAnchor) ∧
        outlet.Adjoins nodesOfThree filled.doc ∧
        ¬outlet.Precedes nodesOfThree (filled.after 0 (.append innerAnchor)).doc) ∧
      ∃ outlet, nested.Reached nodesOfThree ∧ nested.outlets[0]? = some outlet ∧
        nested.Admits nodesOfThree 1 (.append innerText) ∧
        outlet.Adjoins nodesOfThree nested.doc ∧
        ¬outlet.Adjoins nodesOfThree (nested.after 1 (.append innerText)).doc :=
  ⟨⟨_, reached_filled, rfl, ⟨by decide, by decide, by decide⟩, by decide, by decide⟩,
    ⟨_, reached_nested, rfl, ⟨by decide, by decide, by decide⟩, by decide, by decide⟩⟩

end Board

end ViewTemplates
