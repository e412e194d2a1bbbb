import ViewTemplates.Proofs.Outlet.Region

/-!
Runs of calls on one outlet. A call fails in its checks, and then nothing has changed, or it
succeeds; either way the region in front of the anchor shows the views in sequence.
-/

namespace ViewTemplates

inductive OutletCall where
  | append (view : View)
  | prepend (view : View)
  | insertBefore (view reference : View)
  | insertAfter (view reference : View)
  | remove (view : View)

namespace OutletCall

def view : OutletCall → View
  | append view | prepend view | insertBefore view _ | insertAfter view _ | remove view => view

def views : OutletCall → List View
  | insertBefore view reference | insertAfter view reference => [view, reference]
  | append view | prepend view | remove view => [view]

theorem view_mem_views (call : OutletCall) : call.view ∈ call.views := by
  cases call <;> exact List.mem_cons_self

def perform : OutletCall → OutletOp Unit
  | append view => Outlet.append view
  | prepend view => Outlet.prepend view
  | insertBefore view reference => Outlet.insertBefore view reference
  | insertAfter view reference => Outlet.insertAfter view reference
  | remove view => Outlet.remove view

def check : OutletCall → OutletOp Unit
  | append view | prepend view => Outlet.checkInsertable view
  | insertBefore view reference | insertAfter view reference => do
      Outlet.checkReference view reference
      Outlet.checkInsertable view
  | remove view => do
      let state ← get
      if state.outlet.contains view.id then pure () else throw .viewNotInOutlet

/-- The sequence after a call that succeeds. -/
def arrange : OutletCall → List ViewId → List ViewId
  | append view, row => row.erase view.id ++ [view.id]
  | prepend view, row => view.id :: row.erase view.id
  | insertBefore view reference, row =>
      (row.erase view.id).flatMap fun id => if id = reference.id then [view.id, id] else [id]
  | insertAfter view reference, row =>
      (row.erase view.id).flatMap fun id => if id = reference.id then [id, view.id] else [id]
  | remove view, row => row.erase view.id

def removed : OutletCall → List NodeId
  | remove view => view.nodes
  | _ => []

end OutletCall

def OutletState.after (state : OutletState) (call : OutletCall) : OutletState :=
  match call.perform state with
  | .ok _ next | .error _ next => next

def OutletState.run (state : OutletState) (calls : List OutletCall) : OutletState :=
  calls.foldl OutletState.after state

/-! The checks change nothing. -/

theorem Outlet.checkReference_eq (view reference : View) (state : OutletState) :
    Outlet.checkReference view reference state =
      if view.id ≠ reference.id ∧ state.outlet.contains reference.id = true then .ok () state
      else .error .viewNotInOutlet state := by
  rw [Outlet.checkReference, get_bind]
  by_cases same : view.id = reference.id
  · simp [same]
    rfl
  · cases contained : state.outlet.contains reference.id
    · simp
      rfl
    · simp [same]
      rfl

/-- The checks of an insertion pass, or fail and change nothing. -/
theorem Outlet.checkInsertable_cases {state : OutletState} {parent : NodeId}
    (wellFormed : state.doc.WellFormed)
    (attached : state.doc.parent? state.outlet.anchor = some parent) (view : View) :
    (∃ error, Outlet.checkInsertable view state = .error error state) ∨
      (Outlet.checkInsertable view state = .ok () state ∧
        (∀ node ∈ view.nodes, ¬state.doc.Below parent node) ∧
        state.outlet.anchor ∉ view.nodes) := by
  rw [Outlet.checkInsertable, get_bind, attached]
  by_cases holdsParent : (view.nodes.any fun node => state.doc.isAncestorOf node parent) = true
  · exact .inl ⟨.hierarchy .viewHoldsParent, by simp only [holdsParent]; rfl⟩
  · by_cases holdsAnchor : view.nodes.contains state.outlet.anchor = true
    · exact .inl ⟨.hierarchy .viewHoldsAnchor, by simp only [holdsParent, holdsAnchor]; rfl⟩
    · refine .inr ⟨by simp only [holdsParent, holdsAnchor]; rfl, ?_, by simpa using holdsAnchor⟩
      intro node inside below
      exact holdsParent
        (List.any_eq_true.mpr ⟨node, inside, wellFormed.isAncestorOf_iff.mpr below⟩)

namespace Region

variable {state : OutletState} {nodesOf : ViewId → List NodeId} {parent : NodeId}
  {sequence : List ViewId} {front back : List NodeId} {view : View}

/-- An insertion fails in its check, or the view ends up between its neighbours, wherever it was
before. -/
theorem insert (region : Region state nodesOf parent sequence front back)
    (left right : List ViewId) (previous next : OutletState → Option ViewId)
    (nodes : nodesOf view.id = view.nodes)
    (split : sequence.erase view.id = left ++ right)
    (neighbours : ∀ middle : OutletState, middle.outlet.Sequenced nodesOf (left ++ right) →
      previous middle = left.getLast? ∧ next middle = right.head?) :
    (∃ error, Outlet.checkInsertable view state = .error error state) ∨
      Outlet.checkInsertable view state = .ok () state ∧
        ∃ last,
          (do
            Outlet.detach view
            let middle ← get
            Outlet.insertBetween view (previous middle) (next middle) : OutletOp Unit) state =
              .ok () last ∧
          Region last nodesOf parent (left ++ view.id :: right)
            (front.filter (· ∉ view.nodes)) (back.filter (· ∉ view.nodes)) ∧
          Steady state last parent view.nodes := by
  rcases Outlet.checkInsertable_cases region.wellFormed region.anchor_parent view with
    failed | ⟨passed, notBelow, foreign⟩
  · exact .inl failed
  refine .inr ⟨passed, ?_⟩
  obtain ⟨middle, detached, middleRegion, middleSteady, fewer, _⟩ := region.detach nodes
  have absent : view.id ∉ left ++ right := by
    rw [← split]
    exact List.Nodup.not_mem_erase region.sequenced.nodup
  rw [split] at middleRegion
  obtain ⟨last, inserted, lastRegion, lastSteady⟩ :=
    middleRegion.insertBetween nodes absent
      (fun node inside below =>
        notBelow node inside (Relation.ReflTransGen.mono fewer _ _ below))
      (middleSteady.anchor ▸ foreign)
  refine ⟨last, ?_, lastRegion, middleSteady.trans lastSteady fewer⟩
  obtain ⟨before, behind⟩ := neighbours middle middleRegion.sequenced
  rw [bind_of_ok detached, get_bind, before, behind]
  exact inserted

/-- What one call does: it fails in its checks, or it succeeds and keeps the region. -/
def Steps (state : OutletState) (nodesOf : ViewId → List NodeId) (parent : NodeId)
    (sequence : List ViewId) (front back : List NodeId) (call : OutletCall) : Prop :=
  (∃ error, call.check state = .error error state ∧ call.perform state = .error error state) ∨
    ∃ next, call.check state = .ok () state ∧ call.perform state = .ok () next ∧
      Region next nodesOf parent (call.arrange sequence)
        (front.filter (· ∉ call.view.nodes)) (back.filter (· ∉ call.view.nodes)) ∧
      Steady state next parent call.view.nodes ∧
      ∀ node ∈ call.removed, next.doc.parent? node = none

section steps
variable (region : Region state nodesOf parent sequence front back)
  (nodes : nodesOf view.id = view.nodes)
include region nodes

theorem steps_append : Steps state nodesOf parent sequence front back (.append view) := by
  rcases region.insert (sequence.erase view.id) [] (fun middle => middle.outlet.last)
      (fun _ => none) nodes (List.append_nil _).symm
      (fun middle sequenced => ⟨by simpa using sequenced.last, rfl⟩) with
    ⟨error, failed⟩ | ⟨passed, next, placed, nextRegion, steady⟩
  · exact .inl ⟨error, failed, bind_of_error failed⟩
  · exact .inr ⟨next, passed, (bind_of_ok passed).trans placed, nextRegion, steady,
      List.forall_mem_nil _⟩

theorem steps_prepend : Steps state nodesOf parent sequence front back (.prepend view) := by
  rcases region.insert [] (sequence.erase view.id) (fun _ => none)
      (fun middle => middle.outlet.first) nodes (List.nil_append _).symm
      (fun middle sequenced => ⟨rfl, by simpa using sequenced.first⟩) with
    ⟨error, failed⟩ | ⟨passed, next, placed, nextRegion, steady⟩
  · exact .inl ⟨error, failed, bind_of_error failed⟩
  · exact .inr ⟨next, passed, (bind_of_ok passed).trans placed, nextRegion, steady,
      List.forall_mem_nil _⟩

theorem steps_insertBefore (reference : View) :
    Steps state nodesOf parent sequence front back (.insertBefore view reference) := by
  have referenced := Outlet.checkReference_eq view reference state
  split at referenced
  case isFalse => exact .inl ⟨_, bind_of_error referenced, bind_of_error referenced⟩
  case isTrue found =>
    obtain ⟨left, right, split, absent⟩ :=
      region.sequenced.split_reference found.1 (region.sequenced.contains_iff.mp found.2)
    rw [Steps, OutletCall.check, OutletCall.perform, Outlet.insertBefore, bind_of_ok referenced,
      bind_of_ok referenced, OutletCall.arrange, split, Outlet.flatMap_reference absent]
    rcases region.insert left (reference.id :: right)
        (fun middle => middle.outlet.previous? reference.id)
        (fun _ => some reference.id) nodes split
        (fun middle sequenced =>
          ⟨by simp [Outlet.previous?, sequenced.link left reference.id right rfl], rfl⟩) with
      ⟨error, failed⟩ | ⟨passed, next, placed, nextRegion, steady⟩
    · exact .inl ⟨error, failed, bind_of_error failed⟩
    · refine .inr ⟨next, passed, (bind_of_ok passed).trans placed, ?_, steady,
        List.forall_mem_nil _⟩
      rw [List.append_assoc]
      exact nextRegion

theorem steps_insertAfter (reference : View) :
    Steps state nodesOf parent sequence front back (.insertAfter view reference) := by
  have referenced := Outlet.checkReference_eq view reference state
  split at referenced
  case isFalse => exact .inl ⟨_, bind_of_error referenced, bind_of_error referenced⟩
  case isTrue found =>
    obtain ⟨left, right, split, absent⟩ :=
      region.sequenced.split_reference found.1 (region.sequenced.contains_iff.mp found.2)
    rw [Steps, OutletCall.check, OutletCall.perform, Outlet.insertAfter, bind_of_ok referenced,
      bind_of_ok referenced, OutletCall.arrange, split, Outlet.flatMap_reference absent]
    rcases region.insert (left ++ [reference.id]) right (fun _ => some reference.id)
        (fun middle => middle.outlet.next? reference.id) nodes (by simpa using split)
        (fun middle sequenced =>
          ⟨by simp,
            by simp [Outlet.next?, sequenced.link left reference.id right (by simp)]⟩) with
      ⟨error, failed⟩ | ⟨passed, next, placed, nextRegion, steady⟩
    · exact .inl ⟨error, failed, bind_of_error failed⟩
    · refine .inr ⟨next, passed, (bind_of_ok passed).trans placed, ?_, steady,
        List.forall_mem_nil _⟩
      rw [List.append_assoc] at nextRegion ⊢
      exact nextRegion

theorem steps_remove : Steps state nodesOf parent sequence front back (.remove view) := by
  rw [Steps, OutletCall.check, OutletCall.perform, Outlet.remove, get_bind, get_bind]
  cases contained : state.outlet.contains view.id with
  | false => exact .inl ⟨.viewNotInOutlet, rfl, rfl⟩
  | true =>
      have member := region.sequenced.contains_iff.mp contained
      obtain ⟨next, detached, nextRegion, steady, _, parentless⟩ := region.detach nodes
      refine .inr ⟨next, rfl, detached, ?_, steady, parentless member⟩
      change Region next nodesOf parent (sequence.erase view.id)
        (front.filter (· ∉ view.nodes)) (back.filter (· ∉ view.nodes))
      rw [region.filter_foreign member nodes fun _ => .inl,
        region.filter_foreign member nodes fun _ inside => .inr (List.mem_cons_of_mem _ inside)]
      exact nextRegion

end steps

theorem step (region : Region state nodesOf parent sequence front back) (call : OutletCall)
    (given : ∀ view ∈ call.views, nodesOf view.id = view.nodes) :
    Steps state nodesOf parent sequence front back call := by
  cases call with
  | append view => exact region.steps_append (given view List.mem_cons_self)
  | prepend view => exact region.steps_prepend (given view List.mem_cons_self)
  | insertBefore view reference =>
      exact region.steps_insertBefore (given view List.mem_cons_self) reference
  | insertAfter view reference =>
      exact region.steps_insertAfter (given view List.mem_cons_self) reference
  | remove view => exact region.steps_remove (given view List.mem_cons_self)

theorem after (region : Region state nodesOf parent sequence front back) (call : OutletCall)
    (given : ∀ view ∈ call.views, nodesOf view.id = view.nodes) :
    ∃ sequence front back, Region (state.after call) nodesOf parent sequence front back ∧
      (state.after call).outlet.anchor = state.outlet.anchor := by
  rcases region.step call given with
    ⟨error, _, failed⟩ | ⟨next, _, performed, nextRegion, steady, _⟩
  · rw [OutletState.after, failed]
    exact ⟨sequence, front, back, region, rfl⟩
  · rw [OutletState.after, performed]
    exact ⟨_, _, _, nextRegion, steady.anchor⟩

theorem run (region : Region state nodesOf parent sequence front back) (calls : List OutletCall)
    (given : ∀ call ∈ calls, ∀ view ∈ call.views, nodesOf view.id = view.nodes) :
    ∃ sequence front back, Region (state.run calls) nodesOf parent sequence front back ∧
      (state.run calls).outlet.anchor = state.outlet.anchor := by
  induction calls generalizing state sequence front back with
  | nil => exact ⟨sequence, front, back, region, rfl⟩
  | cons call rest induction =>
      obtain ⟨_, _, _, nextRegion, anchor⟩ := region.after call (given call List.mem_cons_self)
      obtain ⟨sequence, front, back, lastRegion, lastAnchor⟩ :=
        induction nextRegion fun later member => given later (List.mem_cons_of_mem _ member)
      exact ⟨sequence, front, back, lastRegion, lastAnchor.trans anchor⟩

end Region

/-- In front of the anchor stand the nodes of the views shown, in the order of the outlet; the rest
of the row belongs to no shown view. -/
structure OutletState.Shows (state : OutletState) (nodesOf : ViewId → List NodeId)
    (parent anchor : NodeId) (front back : List NodeId) : Prop where
  anchored : state.outlet.anchor = anchor
  children : state.doc.children parent =
    front ++ state.outlet.views.flatMap nodesOf ++ anchor :: back
  foreign : ∀ node ∈ front ++ back, ∀ id ∈ state.outlet.views, node ∉ nodesOf id

theorem Region.shows {state : OutletState} {nodesOf : ViewId → List NodeId} {parent : NodeId}
    {sequence : List ViewId} {front back : List NodeId}
    (region : Region state nodesOf parent sequence front back) :
    state.Shows nodesOf parent state.outlet.anchor front back where
  anchored := rfl
  children := by rw [region.sequenced.views_eq, region.children]
  foreign := by
    intro node member id shown
    rw [region.sequenced.views_eq] at shown
    rcases List.mem_append.mp member with early | late
    · exact region.notMem_nodesOf shown (.inl early)
    · exact region.notMem_nodesOf shown (.inr (List.mem_cons_of_mem _ late))

theorem Outlet.new_region {doc : Document} {anchor parent : NodeId}
    {nodesOf : ViewId → List NodeId} (wellFormed : doc.WellFormed)
    (attached : doc.parent? anchor = some parent) (family : Family doc.size nodesOf) :
    ∃ outlet front back, Outlet.new doc anchor = .ok outlet ∧ outlet.anchor = anchor ∧
      Region ⟨doc, outlet⟩ nodesOf parent [] front back := by
  obtain ⟨front, back, row⟩ := List.append_of_mem (wellFormed.mem_of_parent attached)
  refine ⟨⟨anchor, [], none, none⟩, front, back, by rw [Outlet.new, attached], rfl,
    wellFormed, family, ⟨List.nodup_nil, .refl _, rfl, rfl, ?_⟩, by simpa using row⟩
  intro left id right split
  simp at split

/-- The call fails in its checks and changes nothing, or it arranges the views as it says, and only
the nodes of its view have moved. -/
def OutletCall.Keeps (call : OutletCall) (state : OutletState) (nodesOf : ViewId → List NodeId)
    (parent anchor : NodeId) : Prop :=
  ∃ front back, state.Shows nodesOf parent anchor front back ∧
    ((∃ error, call.check state = .error error state ∧
        call.perform state = .error error state) ∨
      ∃ next, call.check state = .ok () state ∧ call.perform state = .ok () next ∧
        next.Shows nodesOf parent anchor
          (front.filter (· ∉ call.view.nodes)) (back.filter (· ∉ call.view.nodes)) ∧
        next.outlet.views = call.arrange state.outlet.views ∧
        Steady state next parent call.view.nodes ∧
        ∀ node ∈ call.removed, next.doc.parent? node = none)

theorem Region.keeps {state : OutletState} {nodesOf : ViewId → List NodeId} {parent : NodeId}
    {sequence : List ViewId} {front back : List NodeId}
    (region : Region state nodesOf parent sequence front back) (call : OutletCall)
    (given : ∀ view ∈ call.views, nodesOf view.id = view.nodes) :
    call.Keeps state nodesOf parent state.outlet.anchor := by
  refine ⟨front, back, region.shows, ?_⟩
  rcases region.step call given with
    failed | ⟨next, passed, performed, nextRegion, steady, parentless⟩
  · exact .inl failed
  · refine .inr ⟨next, passed, performed, steady.anchor ▸ nextRegion.shows, ?_, steady,
      parentless⟩
    rw [nextRegion.sequenced.views_eq, region.sequenced.views_eq]

/-- Every call keeps the region in front of an attached anchor, after every run of calls. -/
theorem OutletCall.keeps_of_run {doc : Document} {anchor parent : NodeId}
    {nodesOf : ViewId → List NodeId} (wellFormed : doc.WellFormed)
    (attached : doc.parent? anchor = some parent) (family : Family doc.size nodesOf)
    (calls : List OutletCall) (call : OutletCall)
    (given : ∀ each ∈ calls ++ [call], ∀ view ∈ each.views, nodesOf view.id = view.nodes) :
    ∃ outlet, Outlet.new doc anchor = .ok outlet ∧
      call.Keeps (OutletState.run ⟨doc, outlet⟩ calls) nodesOf parent anchor := by
  obtain ⟨outlet, front, back, created, anchored, region⟩ :=
    Outlet.new_region wellFormed attached family
  obtain ⟨sequence, front, back, region, stays⟩ :=
    region.run calls fun each member => given each (List.mem_append_left _ member)
  have keeps := region.keeps call (given call (by simp))
  rw [stays.trans anchored] at keeps
  exact ⟨outlet, created, keeps⟩

def Document.anchorAndTexts : Document :=
  ⟨#[⟨.fragment, none, [1]⟩, ⟨.comment "", some 0, []⟩, ⟨.text "a", none, []⟩,
    ⟨.text "b", none, []⟩]⟩

theorem Document.anchorAndTexts_wellFormed : anchorAndTexts.WellFormed := by
  have created := (((WellFormed.empty.create .fragment).create (.comment "")).create
    (.text "a")).create (.text "b")
  have inserted : ((((Document.empty.create .fragment).create (.comment "")).create
      (.text "a")).create (.text "b")).insertBefore 0 1 none = .ok anchorAndTexts := rfl
  exact created.insertBefore (by decide) (by decide) inserted

theorem OutletCall.keeps_of_run_two_views :
    ∃ outlet, Outlet.new Document.anchorAndTexts 1 = .ok outlet ∧
      (OutletCall.insertAfter ⟨0, [2], []⟩ ⟨1, [3], []⟩).Keeps
        (OutletState.run ⟨Document.anchorAndTexts, outlet⟩
          [.append ⟨0, [2], []⟩, .append ⟨1, [3], []⟩])
        (fun id => if id = 0 then [2] else if id = 1 then [3] else []) 0 1 := by
  apply OutletCall.keeps_of_run Document.anchorAndTexts_wellFormed (by decide)
  · constructor
    case used =>
      intro id node
      have size : Document.anchorAndTexts.size = 4 := rfl
      split
      · simp +contextual [size]
      · split <;> simp +contextual [size]
    case nodup =>
      intro id
      split
      · simp
      · split <;> simp
    case disjoint =>
      intro left right different
      by_cases first : left = 0 <;> by_cases second : left = 1 <;>
        by_cases third : right = 0 <;> by_cases fourth : right = 1 <;> simp_all
  · simp [OutletCall.views]

end ViewTemplates
