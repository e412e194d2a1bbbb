import ViewTemplates.Proofs.Outlet.Courses

/-!
The linked views of an outlet are a list: all ways to read them agree on it, and a call does to it
what its name says. Nothing is asked of the document, so this holds for calls on any nodes.
-/

namespace ViewTemplates

namespace Outlet

/-- Following the views from one on comes to an end and meets the given ones. -/
inductive Walk (outlet : Outlet) : Option ViewId → List ViewId → Prop where
  | stop : Walk outlet none []
  | step {id : ViewId} {rest : List ViewId} :
      Walk outlet (outlet.next? id) rest → Walk outlet (some id) (id :: rest)

/-- The outlet reads as the list in every way. -/
structure Represents (outlet : Outlet) (sequence : List ViewId) : Prop where
  nodup : sequence.Nodup
  walk : outlet.Walk outlet.first sequence
  views : outlet.views = sequence
  size : outlet.size = sequence.length
  first : outlet.first = sequence.head?
  last : outlet.last = sequence.getLast?
  contains : ∀ id, outlet.contains id = true ↔ id ∈ sequence
  neighbours : ∀ front id back, sequence = front ++ id :: back →
    outlet.previous? id = front.getLast? ∧ outlet.next? id = back.head?
  absent : ∀ id, id ∉ sequence → outlet.previous? id = none ∧ outlet.next? id = none

namespace Sequenced

variable {outlet : Outlet} {nodesOf : ViewId → List NodeId} {sequence : List ViewId}
  (sequenced : outlet.Sequenced nodesOf sequence)
include sequenced

theorem neighbours {front back : List ViewId} {id : ViewId}
    (split : sequence = front ++ id :: back) :
    outlet.previous? id = front.getLast? ∧ outlet.next? id = back.head? := by
  simp [previous?, next?, sequenced.link front id back split]

theorem walk {front back : List ViewId} (split : sequence = front ++ back) :
    outlet.Walk back.head? back := by
  induction back generalizing front with
  | nil => exact .stop
  | cons id rest induction =>
      have further : sequence = (front ++ [id]) ++ rest := by simpa using split
      refine .step ?_
      rw [(sequenced.neighbours split).2]
      exact induction further

theorem represents : outlet.Represents sequence where
  nodup := sequenced.nodup
  walk := sequenced.first ▸ sequenced.walk (List.nil_append _).symm
  views := sequenced.views_eq
  size := sequenced.size_eq
  first := sequenced.first
  last := sequenced.last
  contains := fun _ => sequenced.contains_iff
  neighbours := fun _ _ _ => sequenced.neighbours
  absent := by
    intro id absent
    simp [previous?, next?, sequenced.get?_eq_none absent]

end Sequenced

end Outlet

namespace OutletCall

/-- What one call does to the list: it fails for want of a view exactly if it does not find one,
and then nothing has changed; it succeeds and arranges the list; or it fails for another reason,
and the list is as it was or without the view. -/
def Refines (call : OutletCall) (state : OutletState) (sequence : List ViewId) : Prop :=
  match call.perform state with
  | .ok _ next => call.Finds sequence ∧ next.outlet.Represents (call.arrange sequence)
  | .error error next =>
      (error = .viewNotInOutlet ↔ ¬call.Finds sequence) ∧
        (error = .viewNotInOutlet → next = state) ∧
        (next.outlet.Represents sequence ∨
          next.outlet.Represents (sequence.erase call.view.id))

theorem sequenced_perform (state : OutletState) {nodesOf : ViewId → List NodeId}
    {sequence : List ViewId} (sequenced : state.outlet.Sequenced nodesOf sequence)
    {call : OutletCall} (given : ∀ view ∈ call.views, nodesOf view.id = view.nodes) :
    match call.perform state with
    | .ok _ next => call.Finds sequence ∧ next.outlet.Sequenced nodesOf (call.arrange sequence)
    | .error error next =>
        (error = .viewNotInOutlet ↔ ¬call.Finds sequence) ∧
          (error = .viewNotInOutlet → next = state) ∧
          (next.outlet.Sequenced nodesOf sequence ∨
            next.outlet.Sequenced nodesOf (sequence.erase call.view.id)) := by
  have nodes : nodesOf call.view.id = call.view.nodes :=
    given _ call.view_mem_views
  cases course sequenced given with
  | refused missing run =>
      rw [run]
      exact ⟨missing, fun _ => rfl, .inl sequenced⟩
  | removed member run =>
      rw [run]
      exact ⟨member, sequenced.taken _⟩
  | @placed _ left right parent found split arranged _ fits run =>
      have taken := sequenced.taken call.view
      rcases Outlet.insertBetween_cases fits.taken call.view left.getLast? right.head? with
        ⟨doc, _, inserted⟩ | ⟨fault, doc, _, failed⟩
      · rw [run, inserted, arranged]
        refine ⟨found, ?_⟩
        rw [split] at taken
        exact taken.link_between (split ▸ sequenced.nodup.not_mem_erase) nodes
      · rw [run, failed]
        exact ⟨by simp [found], nofun, .inr taken⟩

end OutletCall

theorem Outlet.Reached.sequenced {nodesOf : ViewId → List NodeId} {outlet : Outlet}
    (reached : outlet.Reached nodesOf) : ∃ sequence, outlet.Sequenced nodesOf sequence := by
  induction reached with
  | @new doc anchor outlet created =>
      rw [Outlet.new] at created
      split at created
      · cases created
      · cases created
        refine ⟨[], List.nodup_nil, .refl _, rfl, rfl, ?_⟩
        intro front id back split
        simp at split
  | @call doc outlet call _ given induction =>
      obtain ⟨sequence, sequenced⟩ := induction
      have performed := OutletCall.sequenced_perform ⟨doc, outlet⟩ sequenced given
      rw [OutletState.after]
      cases run : call.perform ⟨doc, outlet⟩ with
      | ok value next =>
          rw [run] at performed
          exact ⟨_, performed.2⟩
      | error error next =>
          rw [run] at performed
          rcases performed.2.2 with same | less
          · exact ⟨_, same⟩
          · exact ⟨_, less⟩

theorem Outlet.Reached.run {nodesOf : ViewId → List NodeId} {state : OutletState}
    (reached : state.outlet.Reached nodesOf) (calls : List OutletCall)
    (given : ∀ call ∈ calls, ∀ view ∈ call.views, nodesOf view.id = view.nodes) :
    (state.run calls).outlet.Reached nodesOf := by
  induction calls generalizing state with
  | nil => exact reached
  | cons call rest induction =>
      obtain ⟨here, later⟩ := List.forall_mem_cons.mp given
      have after : (state.after call).outlet.Reached nodesOf := .call call reached here
      exact induction after later

/-- After any calls, and in any document, an outlet is a list on which the next call works. -/
theorem OutletCall.refines_of_reached {nodesOf : ViewId → List NodeId} {outlet : Outlet}
    (reached : outlet.Reached nodesOf) (doc : Document) (call : OutletCall)
    (given : ∀ view ∈ call.views, nodesOf view.id = view.nodes) :
    ∃ sequence, outlet.Represents sequence ∧ call.Refines ⟨doc, outlet⟩ sequence := by
  obtain ⟨sequence, sequenced⟩ := reached.sequenced
  refine ⟨sequence, sequenced.represents, ?_⟩
  have performed := sequenced_perform ⟨doc, outlet⟩ sequenced given
  rw [Refines]
  split
  next run =>
    rw [run] at performed
    exact ⟨performed.1, performed.2.represents⟩
  next run =>
    rw [run] at performed
    exact ⟨performed.1, performed.2.1,
      performed.2.2.imp Outlet.Sequenced.represents Outlet.Sequenced.represents⟩

/-! Two views with a text each, in an outlet on the comment of a fragment. -/

def textsOf (id : ViewId) : List NodeId := if id = 0 then [2] else if id = 1 then [3] else []

def firstText : View := ⟨0, [2], []⟩

def secondText : View := ⟨1, [3], []⟩

def OutletState.twoTexts : OutletState :=
  OutletState.run ⟨Document.anchorAndTexts, ⟨1, [], none, none⟩⟩
    [.append firstText, .append secondText]

theorem Outlet.reached_twoTexts : OutletState.twoTexts.outlet.Reached textsOf := by
  have created : Outlet.new Document.anchorAndTexts 1 = .ok ⟨1, [], none, none⟩ := rfl
  exact Reached.run (.new created) _ (by decide)

theorem OutletCall.refines_of_reached_two_texts :
    ∃ sequence, OutletState.twoTexts.outlet.Represents sequence ∧
      (OutletCall.insertAfter firstText secondText).Refines OutletState.twoTexts sequence :=
  refines_of_reached Outlet.reached_twoTexts OutletState.twoTexts.doc _ (by decide)

end ViewTemplates
