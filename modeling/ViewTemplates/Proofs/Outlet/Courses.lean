import ViewTemplates.Proofs.Outlet.Calls

/-!
The course of a call in any document, whatever has happened there to the nodes of the views. The
checks refuse the call and nothing changes, or its view is taken out, and an insertion then puts it
between two neighbours. An outlet made by calls is therefore a sequence at all times.
-/

namespace ViewTemplates

/-- Outlets made by calls on views with these nodes. The document may be another one each time. -/
inductive Outlet.Reached (nodesOf : ViewId → List NodeId) : Outlet → Prop where
  | new {doc : Document} {anchor : NodeId} {outlet : Outlet} :
      Outlet.new doc anchor = .ok outlet → Reached nodesOf outlet
  | call {doc : Document} {outlet : Outlet} (call : OutletCall) :
      Reached nodesOf outlet → (∀ view ∈ call.views, nodesOf view.id = view.nodes) →
      Reached nodesOf (OutletState.after ⟨doc, outlet⟩ call).outlet

/-- The state without the view; the nodes of a view that was there have no parent. -/
def OutletState.taken (state : OutletState) (view : View) : OutletState :=
  match state.outlet.links.get? view.id with
  | none => state
  | some link => state.without view link

/-- What the checks of an insertion find out. -/
structure Outlet.Insertable (state : OutletState) (parent : NodeId) (view : View) : Prop where
  attached : state.doc.parent? state.outlet.anchor = some parent
  notAbove : ∀ node ∈ view.nodes, state.doc.isAncestorOf node parent = false
  foreign : state.outlet.anchor ∉ view.nodes

namespace OutletCall

/-- What the call refers to is in the sequence, and it is not the view of the call itself. -/
def Finds : OutletCall → List ViewId → Prop
  | append _, _ | prepend _, _ => True
  | insertBefore view reference, row | insertAfter view reference, row =>
      view.id ≠ reference.id ∧ reference.id ∈ row
  | remove view, row => view.id ∈ row

/-- The views behind the place that the call puts its view to. -/
def behind : OutletCall → List ViewId → Option (List ViewId)
  | append _, _ => some []
  | prepend view, row => some (row.erase view.id)
  | insertBefore view reference, row =>
      some ((row.erase view.id).dropWhile (· != reference.id))
  | insertAfter view reference, row =>
      some ((row.erase view.id).dropWhile (· != reference.id)).tail
  | remove _, _ => none

/-- The node in front of which the call puts the nodes of its view. -/
def target? (nodesOf : ViewId → List NodeId) (outlet : Outlet) (call : OutletCall) :
    Option NodeId :=
  (call.behind outlet.views).map fun row => (row.flatMap nodesOf).head?.getD outlet.anchor

/-- The courses of a call. -/
inductive Course (nodesOf : ViewId → List NodeId) (state : OutletState)
    (sequence : List ViewId) : OutletCall → Prop where
  | refused {call : OutletCall} {error : Error} :
      (error = .viewNotInOutlet ↔ ¬call.Finds sequence) →
      call.perform state = .error error state → Course nodesOf state sequence call
  | removed {view : View} :
      view.id ∈ sequence → (remove view).perform state = .ok () (state.taken view) →
      Course nodesOf state sequence (.remove view)
  | placed {call : OutletCall} {left right : List ViewId} {parent : NodeId} :
      call.Finds sequence → sequence.erase call.view.id = left ++ right →
      call.arrange sequence = left ++ call.view.id :: right →
      call.behind sequence = some right →
      Outlet.Insertable state parent call.view →
      call.perform state =
        Outlet.insertBetween call.view left.getLast? right.head? (state.taken call.view) →
      Course nodesOf state sequence call

end OutletCall

namespace OutletState

variable (state : OutletState) (view : View)

theorem anchor_taken : (state.taken view).outlet.anchor = state.outlet.anchor := by
  rw [taken]
  split
  · rfl
  · exact state.anchor_without view _

theorem taken_eq_or : (state.taken view).doc = state.doc ∨
    (state.taken view).doc = view.nodes.foldl Document.remove state.doc := by
  rw [taken]
  split
  · exact .inl rfl
  · exact .inr rfl

theorem wellFormed_taken (wellFormed : state.doc.WellFormed) :
    (state.taken view).doc.WellFormed := by
  rcases state.taken_eq_or view with same | removed
  · rwa [same]
  · rw [removed]
    exact wellFormed.foldl_remove _

theorem size_taken : (state.taken view).doc.size = state.doc.size := by
  rcases state.taken_eq_or view with same | removed
  · rw [same]
  · rw [removed, Document.size_foldl_remove]

theorem parent?_taken_of_notMem {node : NodeId} (outside : node ∉ view.nodes) :
    (state.taken view).doc.parent? node = state.doc.parent? node := by
  rcases state.taken_eq_or view with same | removed
  · rw [same]
  · rw [removed, Document.parent?_foldl_remove, if_neg outside]

theorem childOf_taken {child parent : NodeId}
    (attached : (state.taken view).doc.ChildOf child parent) : state.doc.ChildOf child parent := by
  rcases state.taken_eq_or view with same | removed
  · rwa [same] at attached
  · rw [removed, Document.ChildOf, Document.parent?_foldl_remove] at attached
    split at attached
    · cases attached
    · exact attached

end OutletState

namespace Outlet

/-! The checks, in any document. -/

theorem checkReference_cases (view reference : View) (state : OutletState) :
    (¬(view.id ≠ reference.id ∧ state.outlet.contains reference.id = true) ∧
        checkReference view reference state = .error .viewNotInOutlet state) ∨
      view.id ≠ reference.id ∧ state.outlet.contains reference.id = true ∧
        checkReference view reference state = .ok () state := by
  rw [checkReference_eq]
  split
  next found => exact .inr ⟨found.1, found.2, rfl⟩
  next missing => exact .inl ⟨missing, rfl⟩

theorem checkInsertable_outcome (view : View) (state : OutletState) :
    (∃ error, error ≠ .viewNotInOutlet ∧ checkInsertable view state = .error error state) ∨
      checkInsertable view state = .ok () state ∧ ∃ parent, Insertable state parent view := by
  rw [checkInsertable, get_bind]
  cases attached : state.doc.parent? state.outlet.anchor with
  | none => exact .inl ⟨.detachedAnchor, by simp, rfl⟩
  | some parent =>
      simp only
      split
      next => exact .inl ⟨.hierarchy .viewHoldsParent, by simp, rfl⟩
      next lower =>
        split
        next => exact .inl ⟨.hierarchy .viewHoldsAnchor, by simp, rfl⟩
        next foreign =>
          refine .inr ⟨rfl, parent, attached, ?_, by simpa using foreign⟩
          intro node inside
          simpa using fun above => lower (List.any_eq_true.mpr ⟨node, inside, above⟩)

section sequenced
variable {state : OutletState} {nodesOf : ViewId → List NodeId} {sequence : List ViewId}
  {view : View} (sequenced : state.outlet.Sequenced nodesOf sequence)
include sequenced

theorem Sequenced.taken (view : View) :
    (state.taken view).outlet.Sequenced nodesOf (sequence.erase view.id) := by
  rw [OutletState.taken]
  by_cases member : view.id ∈ sequence
  · obtain ⟨left, right, rfl⟩ := List.append_of_mem member
    have found := sequenced.link left view.id right rfl
    have absent : view.id ∉ left := by
      have distinct := sequenced.nodup
      grind [List.nodup_append]
    rw [found, List.erase_append_right _ absent, List.erase_cons_head]
    exact sequenced.unlink rfl found
  · rw [sequenced.get?_eq_none member, List.erase_of_not_mem member]
    exact sequenced

theorem Sequenced.taken_of_notMem (absent : view.id ∉ sequence) : state.taken view = state := by
  rw [OutletState.taken, sequenced.get?_eq_none absent]

theorem Sequenced.detach_eq (nodes : nodesOf view.id = view.nodes) :
    detach view state = .ok () (state.taken view) := by
  rw [detach, get_bind, OutletState.taken]
  by_cases member : view.id ∈ sequence
  · obtain ⟨left, right, rfl⟩ := List.append_of_mem member
    rw [sequenced.link left view.id right rfl]
    simp only [nodes]
    rfl
  · rw [sequenced.get?_eq_none member]
    rfl

/-- What all insertions do after their check of the reference. -/
theorem Sequenced.insertion (nodes : nodesOf view.id = view.nodes) {left right : List ViewId}
    (previous next : OutletState → Option ViewId)
    (split : sequence.erase view.id = left ++ right)
    (neighbours : ∀ middle : OutletState, middle.outlet.Sequenced nodesOf (left ++ right) →
      previous middle = left.getLast? ∧ next middle = right.head?) :
    let insert : OutletOp Unit := do
      checkInsertable view
      detach view
      let middle ← get
      insertBetween view (previous middle) (next middle)
    (∃ error, error ≠ .viewNotInOutlet ∧ insert state = .error error state) ∨
      ∃ parent, Insertable state parent view ∧
        insert state = insertBetween view left.getLast? right.head? (state.taken view) := by
  intro insert
  rcases checkInsertable_outcome view state with ⟨error, other, failed⟩ | ⟨passed, parent, fits⟩
  · exact .inl ⟨error, other, bind_of_error failed⟩
  · refine .inr ⟨parent, fits, ?_⟩
    obtain ⟨before, behind⟩ := neighbours _ (split ▸ sequenced.taken view)
    simp only [insert]
    rw [bind_of_ok passed, bind_of_ok (sequenced.detach_eq nodes), get_bind, before, behind]

end sequenced

/-! Insertions change the document first, and the sequence when all nodes are in their places. -/

theorem insertNodes_cases (parent before : NodeId) (nodes : List NodeId) (state : OutletState) :
    (∃ doc, insertNodes parent before nodes state = .ok () { state with doc }) ∨
      ∃ fault doc, insertNodes parent before nodes state =
        .error (.hierarchy fault) { state with doc } := by
  induction nodes generalizing state with
  | nil => exact .inl ⟨state.doc, rfl⟩
  | cons node rest induction =>
      cases inserted : state.doc.insertBefore parent node (some before) with
      | error fault =>
          refine .inr ⟨fault, state.doc, ?_⟩
          rw [insertNodes, get_bind]
          simp only [inserted]
          rfl
      | ok doc =>
          rw [insertNodes_cons inserted]
          exact induction { state with doc }

theorem insertBetween_cases {state : OutletState} {parent : NodeId}
    (attached : state.doc.parent? state.outlet.anchor = some parent) (view : View)
    (previous next : Option ViewId) :
    (∃ doc, insertNodes parent (state.outlet.nodeBehind next) view.nodes state =
        .ok () { state with doc } ∧
      insertBetween view previous next state = .ok () ⟨doc, state.outlet.link view previous next⟩) ∨
    ∃ fault doc, insertNodes parent (state.outlet.nodeBehind next) view.nodes state =
        .error (.hierarchy fault) { state with doc } ∧
      insertBetween view previous next state = .error (.hierarchy fault) { state with doc } := by
  rw [insertBetween, get_bind, attached]
  simp only
  rcases insertNodes_cases parent (state.outlet.nodeBehind next) view.nodes state with
    ⟨doc, inserted⟩ | ⟨fault, doc, failed⟩
  · rw [bind_of_ok inserted]
    exact .inl ⟨doc, inserted, rfl⟩
  · rw [bind_of_error failed]
    exact .inr ⟨fault, doc, failed, rfl⟩

end Outlet

theorem Outlet.Insertable.taken {state : OutletState} {parent : NodeId} {view : View}
    (fits : Outlet.Insertable state parent view) :
    (state.taken view).doc.parent? (state.taken view).outlet.anchor = some parent := by
  rw [state.anchor_taken, state.parent?_taken_of_notMem view fits.foreign]
  exact fits.attached

namespace OutletCall

theorem dropWhile_reference {left right : List ViewId} {reference : ViewId}
    (absent : reference ∉ left) :
    (left ++ reference :: right).dropWhile (· != reference) = reference :: right := by
  rw [List.dropWhile_append_of_pos]
  · simp
  · intro id member
    simpa using fun same : id = reference => absent (same ▸ member)

section course
variable {state : OutletState} {nodesOf : ViewId → List NodeId} {sequence : List ViewId}
  (sequenced : state.outlet.Sequenced nodesOf sequence) {view reference : View}
  (nodes : nodesOf view.id = view.nodes)
include sequenced nodes

theorem course_append : (append view).Course nodesOf state sequence := by
  rcases sequenced.insertion nodes (fun middle => middle.outlet.last) (fun _ => none)
      (List.append_nil _).symm (fun middle linked => ⟨by simpa using linked.last, rfl⟩) with
    ⟨error, other, failed⟩ | ⟨parent, fits, run⟩
  · exact .refused (by simp [other, Finds]) failed
  · exact .placed trivial (List.append_nil _).symm rfl rfl fits run

theorem course_prepend : (prepend view).Course nodesOf state sequence := by
  rcases sequenced.insertion nodes (fun _ => none) (fun middle => middle.outlet.first)
      (List.nil_append _).symm (fun middle linked => ⟨rfl, by simpa using linked.first⟩) with
    ⟨error, other, failed⟩ | ⟨parent, fits, run⟩
  · exact .refused (by simp [other, Finds]) failed
  · exact .placed trivial (List.nil_append _).symm rfl rfl fits run

theorem course_insertBefore :
    (insertBefore view reference).Course nodesOf state sequence := by
  rcases Outlet.checkReference_cases view reference state with
    ⟨missing, failed⟩ | ⟨different, contained, passed⟩
  · rw [sequenced.contains_iff] at missing
    exact .refused (by simpa [Finds] using missing) (bind_of_error failed)
  · have member := sequenced.contains_iff.mp contained
    obtain ⟨left, right, split, absent⟩ := sequenced.split_reference different member
    have found : (insertBefore view reference).Finds sequence := ⟨different, member⟩
    rcases sequenced.insertion nodes (fun middle => middle.outlet.previous? reference.id)
        (fun _ => some reference.id) split (fun middle linked =>
          ⟨by simp [Outlet.previous?, linked.link left reference.id right rfl], rfl⟩) with
      ⟨error, other, failed⟩ | ⟨parent, fits, run⟩
    · exact .refused (by simp [other, found]) ((bind_of_ok passed).trans failed)
    · refine .placed found split ?_ ?_ fits ((bind_of_ok passed).trans run)
      · rw [arrange, split, Outlet.flatMap_reference absent, List.append_assoc]
        rfl
      · rw [behind, split, dropWhile_reference fun inside => absent (List.mem_append_left _ inside)]

theorem course_insertAfter : (insertAfter view reference).Course nodesOf state sequence := by
  rcases Outlet.checkReference_cases view reference state with
    ⟨missing, failed⟩ | ⟨different, contained, passed⟩
  · rw [sequenced.contains_iff] at missing
    exact .refused (by simpa [Finds] using missing) (bind_of_error failed)
  · have member := sequenced.contains_iff.mp contained
    obtain ⟨left, right, split, absent⟩ := sequenced.split_reference different member
    have found : (insertAfter view reference).Finds sequence := ⟨different, member⟩
    have beside : sequence.erase view.id = (left ++ [reference.id]) ++ right := by
      simpa using split
    rcases sequenced.insertion nodes (fun _ => some reference.id)
        (fun middle => middle.outlet.next? reference.id) beside (fun middle linked =>
          ⟨by simp, by
            simp [Outlet.next?, linked.link left reference.id right (by simp)]⟩) with
      ⟨error, other, failed⟩ | ⟨parent, fits, run⟩
    · exact .refused (by simp [other, found]) ((bind_of_ok passed).trans failed)
    · refine .placed found beside ?_ ?_ fits ((bind_of_ok passed).trans run)
      · rw [arrange, split, Outlet.flatMap_reference absent, List.append_assoc, List.append_assoc]
        rfl
      · have early : reference.id ∉ left := fun inside => absent (List.mem_append_left _ inside)
        rw [behind, split, dropWhile_reference early, List.tail_cons]

theorem course_remove : (remove view).Course nodesOf state sequence := by
  cases contained : state.outlet.contains view.id with
  | false =>
      have absent : view.id ∉ sequence := by
        rw [← sequenced.contains_iff, contained]
        nofun
      have missing : Error.viewNotInOutlet = .viewNotInOutlet ↔
          ¬(remove view).Finds sequence := by simpa [Finds] using absent
      refine .refused missing ?_
      rw [perform, Outlet.remove, get_bind, contained]
      rfl
  | true =>
      refine .removed (sequenced.contains_iff.mp contained) ?_
      rw [perform, Outlet.remove, get_bind, contained]
      exact sequenced.detach_eq nodes

end course

theorem course {state : OutletState} {nodesOf : ViewId → List NodeId} {sequence : List ViewId}
    (sequenced : state.outlet.Sequenced nodesOf sequence) {call : OutletCall}
    (given : ∀ view ∈ call.views, nodesOf view.id = view.nodes) :
    call.Course nodesOf state sequence := by
  have nodes : nodesOf call.view.id = call.view.nodes :=
    given _ call.view_mem_views
  cases call with
  | append view => exact course_append sequenced nodes
  | prepend view => exact course_prepend sequenced nodes
  | insertBefore view reference => exact course_insertBefore sequenced nodes
  | insertAfter view reference => exact course_insertAfter sequenced nodes
  | remove view => exact course_remove sequenced nodes

theorem anchor_after {state : OutletState} {nodesOf : ViewId → List NodeId}
    {sequence : List ViewId} (sequenced : state.outlet.Sequenced nodesOf sequence)
    {call : OutletCall} (given : ∀ view ∈ call.views, nodesOf view.id = view.nodes) :
    (state.after call).outlet.anchor = state.outlet.anchor := by
  rw [OutletState.after]
  cases course sequenced given with
  | refused _ run => rw [run]
  | removed _ run =>
      rw [run]
      exact state.anchor_taken _
  | @placed _ left right parent _ _ _ _ fits run =>
      rw [run]
      rcases Outlet.insertBetween_cases fits.taken call.view left.getLast? right.head? with
        ⟨doc, _, inserted⟩ | ⟨fault, doc, _, failed⟩
      · rw [inserted]
        simp [Outlet.link, state.anchor_taken]
      · rw [failed]
        exact state.anchor_taken _

theorem target?_of_behind {state : OutletState} {nodesOf : ViewId → List NodeId}
    {sequence right : List ViewId} {call : OutletCall}
    (sequenced : state.outlet.Sequenced nodesOf sequence)
    (behind : call.behind sequence = some right) :
    call.target? nodesOf state.outlet =
      some ((right.flatMap nodesOf).head?.getD state.outlet.anchor) := by
  rw [target?, sequenced.views_eq, behind]
  rfl

end OutletCall

end ViewTemplates
