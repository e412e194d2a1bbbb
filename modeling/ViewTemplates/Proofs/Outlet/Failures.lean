import ViewTemplates.Proofs.Artifacts
import ViewTemplates.Proofs.Outlet.Refinement

/-!
What is left of a call that fails. The checks come before all changes, but they do not look at the
node in front of which the view is to be put. Where that has been moved away, a view that is moved
within its outlet has been taken out already when the call fails.
-/

namespace ViewTemplates

open Document

namespace Outlet

/-- In front of a node that hangs elsewhere nothing is put, and nothing moves. -/
theorem insertNodes_of_stray {state : OutletState} {parent before : NodeId} {nodes : List NodeId}
    (container : (state.doc.kind parent).isContainer = true)
    (notAbove : ∀ node ∈ nodes, state.doc.isAncestorOf node parent = false)
    (stray : state.doc.parent? before ≠ some parent) :
    insertNodes parent before nodes state = .ok () state ∨
      insertNodes parent before nodes state = .error (.hierarchy .foreignReference) state := by
  induction nodes with
  | nil => exact .inl rfl
  | cons node rest induction =>
      obtain ⟨here, later⟩ := List.forall_mem_cons.mp notAbove
      by_cases same : before = node
      · have stays : state.doc.insertBefore parent node (some before) = .ok state.doc := by
          rw [Document.insertBefore, container, here, same]
          simp
        rw [insertNodes_cons stays]
        exact induction later
      · have refused : state.doc.insertBefore parent node (some before) =
            .error .foreignReference := by
          rw [Document.insertBefore, container, here]
          simp [same, stray]
        refine .inr ?_
        rw [insertNodes, get_bind]
        simp only [refused]
        rfl

/-- In front of a child of the parent, all nodes find a place. -/
theorem insertNodes_of_sibling {nodes : List NodeId} {state : OutletState} {parent before : NodeId}
    (wellFormed : state.doc.WellFormed) (sibling : state.doc.parent? before = some parent)
    (used : ∀ node ∈ nodes, node < state.doc.size)
    (notBelow : ∀ node ∈ nodes, ¬state.doc.Below parent node) :
    ∃ doc, insertNodes parent before nodes state = .ok () { state with doc } := by
  induction nodes generalizing state with
  | nil => exact ⟨state.doc, rfl⟩
  | cons node rest induction =>
      obtain ⟨nodeUsed, restUsed⟩ := List.forall_mem_cons.mp used
      obtain ⟨nodeNotBelow, restNotBelow⟩ := List.forall_mem_cons.mp notBelow
      by_cases same : before = node
      · have stays : state.doc.insertBefore parent node (some before) = .ok state.doc := by
          have acyclic : ¬state.doc.isAncestorOf node parent = true := fun above =>
            nodeNotBelow (wellFormed.isAncestorOf_iff.mp above)
          rw [Document.insertBefore, if_neg (by simp [wellFormed.container_of_parent sibling]),
            if_neg acyclic, if_pos (congrArg some same)]
        rw [insertNodes_cons stays]
        exact induction wellFormed sibling restUsed restNotBelow
      · have movable : state.doc.Movable parent node (some before) := by
          refine ⟨wellFormed.container_of_parent sibling, nodeUsed,
            wellFormed.parent_lt_size sibling, nodeNotBelow, ?_, ?_⟩
          · rintro other equality
            exact Option.some.inj equality ▸ sibling
          · exact fun equality => same (Option.some.inj equality)
        rw [insertNodes_cons (wellFormed.insertBefore_eq movable)]
        refine @induction { state with doc := state.doc.moved parent node (some before) }
          (wellFormed.moved movable) ?_ ?_ ?_
        · exact (parent?_moved movable before).trans ((if_neg same).trans sibling)
        · simpa using restUsed
        · exact fun later member below => restNotBelow later member (below_moved movable below)

end Outlet

namespace Outlet.Insertable

variable {state next : OutletState} {parent : NodeId} {view : View}
  (fits : Outlet.Insertable state parent view)
include fits

theorem notBelow_taken (wellFormed : state.doc.WellFormed) :
    ∀ node ∈ view.nodes, ¬(state.taken view).doc.Below parent node := by
  intro node inside below
  have above := wellFormed.isAncestorOf_iff.mpr
    (Relation.ReflTransGen.mono (fun _ _ => state.childOf_taken view) _ _ below)
  rw [fits.notAbove node inside] at above
  cases above

/-- Between its neighbours, a view that passed the checks fails only for the node behind it. -/
theorem of_insertBetween_failure (wellFormed : state.doc.WellFormed)
    (used : ∀ node ∈ view.nodes, node < state.doc.size) {previous following : Option ViewId}
    {error : Error}
    (failed : Outlet.insertBetween view previous following (state.taken view) =
      .error error next) :
    (state.taken view).doc.parent? ((state.taken view).outlet.nodeBehind following) ≠
        some parent ∧
      error = .hierarchy .foreignReference ∧ next = state.taken view := by
  have middle := state.wellFormed_taken view wellFormed
  have notBelow := fits.notBelow_taken wellFormed
  have notAbove : ∀ node ∈ view.nodes,
      (state.taken view).doc.isAncestorOf node parent = false := by
    intro node inside
    simpa using fun above => notBelow node inside (middle.isAncestorOf_iff.mp above)
  rcases Outlet.insertBetween_cases fits.taken view previous following with
    ⟨doc, _, inserted⟩ | ⟨fault, doc, stopped, notInserted⟩
  · rw [inserted] at failed
    cases failed
  · rw [notInserted] at failed
    cases failed
    have stray : (state.taken view).doc.parent?
        ((state.taken view).outlet.nodeBehind following) ≠ some parent := by
      intro sibling
      obtain ⟨last, placed⟩ := Outlet.insertNodes_of_sibling middle sibling
        (by simpa [state.size_taken] using used) notBelow
      rw [placed] at stopped
      cases stopped
    rcases Outlet.insertNodes_of_stray (middle.container_of_parent fits.taken) notAbove stray with
      placed | refused
    · rw [placed] at stopped
      cases stopped
    · rw [refused] at stopped
      injection stopped with reason kept
      exact ⟨stray, reason.symm, kept.symm⟩

end Outlet.Insertable

namespace OutletCall

/-- A view that is in the outlet is to be moved to a place in front of a node that does not stand
beside the anchor, or that is one of its own. -/
def Astray (nodesOf : ViewId → List NodeId) (state : OutletState) (call : OutletCall) : Prop :=
  call.view.id ∈ state.outlet.views ∧
    ∃ target, call.target? nodesOf state.outlet = some target ∧
      (target ∈ call.view.nodes ∨
        state.doc.parent? target ≠ state.doc.parent? state.outlet.anchor)

/-- A call that fails has changed nothing, or it has taken out its view and nothing else. -/
theorem eq_of_failure {state next : OutletState} {nodesOf : ViewId → List NodeId}
    {sequence : List ViewId} {call : OutletCall} {error : Error}
    (wellFormed : state.doc.WellFormed) (sequenced : state.outlet.Sequenced nodesOf sequence)
    (given : ∀ view ∈ call.views, nodesOf view.id = view.nodes)
    (used : ∀ node ∈ call.view.nodes, node < state.doc.size)
    (failed : call.perform state = .error error next) :
    next = state ∨ call.Astray nodesOf state ∧ error = .hierarchy .foreignReference ∧
      next = state.taken call.view := by
  cases course sequenced given with
  | refused _ run =>
      rw [run] at failed
      cases failed
      exact .inl rfl
  | removed _ run =>
      rw [run] at failed
      cases failed
  | @placed _ left right parent _ split _ behind fits run =>
      rw [run] at failed
      obtain ⟨stray, reason, kept⟩ := fits.of_insertBetween_failure wellFormed used failed
      by_cases member : call.view.id ∈ sequence
      case neg => exact .inl (kept.trans (sequenced.taken_of_notMem member))
      have taken := sequenced.taken call.view
      rw [split] at taken
      rw [taken.nodeBehind_eq rfl, state.anchor_taken] at stray
      refine .inr ⟨⟨sequenced.views_eq ▸ member, _, target?_of_behind sequenced behind, ?_⟩,
        reason, kept⟩
      by_cases own : (right.flatMap nodesOf).head?.getD state.outlet.anchor ∈ call.view.nodes
      · exact .inl own
      · rw [state.parent?_taken_of_notMem _ own] at stray
        exact .inr (fits.attached ▸ stray)

/-- In all states that calls can lead to, a call that fails has changed neither the document nor the
outlet, unless it moves a view in front of a node that has gone astray. The view is then taken out
of both. -/
theorem failure_of_reached {doc : Document} (reached : Artifact.Reached (.document doc))
    {nodesOf : ViewId → List NodeId} {outlet : Outlet} (made : outlet.Reached nodesOf)
    {call : OutletCall} (given : ∀ view ∈ call.views, nodesOf view.id = view.nodes)
    (used : ∀ node ∈ call.view.nodes, node < doc.size) {error : Error} {next : OutletState}
    (failed : call.perform ⟨doc, outlet⟩ = .error error next) :
    next = ⟨doc, outlet⟩ ∨
      call.Astray nodesOf ⟨doc, outlet⟩ ∧ error = .hierarchy .foreignReference ∧
        next = OutletState.taken ⟨doc, outlet⟩ call.view := by
  obtain ⟨sequence, sequenced⟩ := made.sequenced
  have wellFormed : doc.WellFormed := reached.sound
  have links : (OutletState.mk doc outlet).outlet.Sequenced nodesOf sequence := sequenced
  exact eq_of_failure wellFormed links given used failed

end OutletCall

/-! The text of the first of two views is taken away, and the second is to be put before it. -/

namespace OutletState

def strayText : OutletState := ⟨twoTexts.doc.remove 2, twoTexts.outlet⟩

theorem reached_strayText : Artifact.Reached (.document strayText.doc) := by
  have created := (((Artifact.Reached.empty.after (.create .fragment) nofun nofun).after
    (.create (.comment "")) nofun nofun).after (.create (.text "a")) nofun nofun).after
    (.create (.text "b")) nofun nofun
  have anchored := created.after (.appendChild 0 1) (by decide) nofun
  have first := anchored.after (.outlet ⟨1, [], none, none⟩ (.append firstText)) (by decide) nofun
  have second := first.after (.outlet (OutletState.run ⟨Document.anchorAndTexts,
    ⟨1, [], none, none⟩⟩ [.append firstText]).outlet (.append secondText)) (by decide) nofun
  exact second.after (.remove 2) (by decide) nofun

theorem prepend_strayText : (OutletCall.prepend secondText).perform strayText =
    .error (.hierarchy .foreignReference) (strayText.taken secondText) := rfl

end OutletState

namespace OutletCall

theorem failure_of_reached_stray_text : ∃ error next,
    (prepend secondText).perform OutletState.strayText = .error error next ∧
      (next = OutletState.strayText ∨
        (prepend secondText).Astray textsOf OutletState.strayText ∧
          error = .hierarchy .foreignReference ∧
          next = OutletState.strayText.taken secondText) :=
  ⟨_, _, OutletState.prepend_strayText,
    failure_of_reached OutletState.reached_strayText Outlet.reached_twoTexts (by decide)
      (by decide) OutletState.prepend_strayText⟩

/-- The call fails, and yet its view is gone from the outlet and the document. -/
theorem changed_by_failure :
    Artifact.Reached (.document OutletState.strayText.doc) ∧
      OutletState.strayText.outlet.Reached textsOf ∧
      OutletState.strayText.outlet.views = [0, 1] ∧
      OutletState.strayText.doc.children 0 = [3, 1] ∧
      ∃ next, (prepend secondText).perform OutletState.strayText =
          .error (.hierarchy .foreignReference) next ∧
        next.outlet.views = [0] ∧ next.doc.children 0 = [1] :=
  ⟨OutletState.reached_strayText, Outlet.reached_twoTexts, by decide, by decide,
    _, OutletState.prepend_strayText, by decide, by decide⟩

end OutletCall

end ViewTemplates
