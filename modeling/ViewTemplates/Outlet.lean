import ViewTemplates.Error
import ViewTemplates.View

/-!
Outlets: places in a document where views are shown. An outlet keeps a sequence of views in front of
an anchor node. The sequence is linked in both directions, and an insertion puts the nodes of a view
in front of the first node of the views behind it, or of the anchor.
-/

namespace ViewTemplates

structure Link where
  nodes : List NodeId
  previous : Option ViewId
  next : Option ViewId
  deriving Repr, DecidableEq

abbrev Links := List (ViewId × Link)

namespace Links

def get? (links : Links) (id : ViewId) : Option Link :=
  match links with
  | [] => none
  | (other, link) :: rest => if other = id then some link else Links.get? rest id

def update (links : Links) (id : ViewId) (f : Link → Link) : Links :=
  links.map fun (other, link) => if other = id then (other, f link) else (other, link)

def erase (links : Links) (id : ViewId) : Links :=
  links.filter fun entry => entry.1 != id

def insert (links : Links) (id : ViewId) (link : Link) : Links := (id, link) :: links

@[simp] theorem get?_insert (links : Links) (id other : ViewId) (link : Link) :
    (links.insert id link).get? other = if id = other then some link else links.get? other := rfl

@[simp] theorem get?_erase (links : Links) (id other : ViewId) :
    (links.erase id).get? other = if id = other then none else links.get? other := by
  induction links with
  | nil => by_cases same : id = other <;> simp [erase, get?, same]
  | cons entry rest induction =>
      obtain ⟨first, link⟩ := entry
      simp only [erase] at induction ⊢
      by_cases gone : first = id <;> by_cases same : id = other <;>
        by_cases found : first = other <;> simp_all [get?]

@[simp] theorem get?_update (links : Links) (id other : ViewId) (f : Link → Link) :
    (links.update id f).get? other =
      if id = other then (links.get? other).map f else links.get? other := by
  induction links with
  | nil => by_cases same : id = other <;> simp [update, get?, same]
  | cons entry rest induction =>
      obtain ⟨first, link⟩ := entry
      simp only [update] at induction ⊢
      by_cases here : first = id <;> by_cases same : id = other <;>
        by_cases found : first = other <;> simp_all [get?]

end Links

structure Outlet where
  anchor : NodeId
  links : Links
  first : Option ViewId
  last : Option ViewId
  deriving Repr, DecidableEq

namespace Outlet

/-- An outlet without views; its anchor has to be attached. -/
def new (doc : Document) (anchor : NodeId) : Except Error Outlet :=
  match doc.parent? anchor with
  | none => .error .detachedAnchor
  | some _ => .ok ⟨anchor, [], none, none⟩

def size (outlet : Outlet) : Nat := outlet.links.length

def contains (outlet : Outlet) (id : ViewId) : Bool := (outlet.links.get? id).isSome

def next? (outlet : Outlet) (id : ViewId) : Option ViewId := (outlet.links.get? id).bind (·.next)

def previous? (outlet : Outlet) (id : ViewId) : Option ViewId :=
  (outlet.links.get? id).bind (·.previous)

/-- The sequence from a view on, this many views at most. -/
def viewsFrom (outlet : Outlet) : Nat → Option ViewId → List ViewId
  | 0, _ | _, none => []
  | limit + 1, some id => id :: outlet.viewsFrom limit (outlet.next? id)

def views (outlet : Outlet) : List ViewId := outlet.viewsFrom (outlet.size + 1) outlet.first

/-- The first node of the views from one on, looking at this many views at most. -/
def firstNodeFrom (outlet : Outlet) : Nat → Option ViewId → Option NodeId
  | 0, _ | _, none => none
  | limit + 1, some id =>
      (outlet.links.get? id).bind fun link =>
        match link.nodes with
        | node :: _ => some node
        | [] => outlet.firstNodeFrom limit link.next

/-- The first node behind a place: that of the views from one on, or the anchor. -/
def nodeBehind (outlet : Outlet) (next : Option ViewId) : NodeId :=
  (outlet.firstNodeFrom (outlet.size + 1) next).getD outlet.anchor

/-- Let what comes before a place point to a view. -/
def linkForward (outlet : Outlet) (previous : Option ViewId) (id : Option ViewId) : Outlet :=
  match previous with
  | some view =>
      { outlet with links := outlet.links.update view fun link => { link with next := id } }
  | none => { outlet with first := id }

/-- Let what comes behind a place point back to a view. -/
def linkBack (outlet : Outlet) (next : Option ViewId) (id : Option ViewId) : Outlet :=
  match next with
  | some view =>
      { outlet with links := outlet.links.update view fun link => { link with previous := id } }
  | none => { outlet with last := id }

/-- Take a view into the sequence between its neighbours. -/
def link (outlet : Outlet) (view : View) (previous next : Option ViewId) : Outlet :=
  let linked := (outlet.linkForward previous view.id).linkBack next view.id
  { linked with links := linked.links.insert view.id ⟨view.nodes, previous, next⟩ }

/-- Take the view of a link out of the sequence and connect its neighbours. -/
def unlink (outlet : Outlet) (id : ViewId) (link : Link) : Outlet :=
  (Outlet.linkForward { outlet with links := outlet.links.erase id } link.previous
    link.next).linkBack link.next link.previous

end Outlet

structure OutletState where
  doc : Document
  outlet : Outlet
  deriving Repr, DecidableEq

/-- An operation on an outlet; what happened before an error stays. -/
abbrev OutletOp := EStateM Error OutletState

namespace Outlet

/-- The reference is another view, and in the outlet. -/
def checkReference (view reference : View) : OutletOp Unit := do
  let state ← get
  if view.id = reference.id || !state.outlet.contains reference.id then throw .viewNotInOutlet

/-- The anchor is attached, and the view holds neither it nor what it is attached to. -/
def checkInsertable (view : View) : OutletOp Unit := do
  let state ← get
  match state.doc.parent? state.outlet.anchor with
  | none => throw .detachedAnchor
  | some parent =>
      if view.nodes.any fun node => state.doc.isAncestorOf node parent then
        throw (.hierarchy .viewHoldsParent)
      else if view.nodes.contains state.outlet.anchor then throw (.hierarchy .viewHoldsAnchor)

/-- Take a view out of the sequence and its nodes out of the document, if it is there. -/
def detach (view : View) : OutletOp Unit := do
  let state ← get
  match state.outlet.links.get? view.id with
  | none => pure ()
  | some link =>
      set (⟨link.nodes.foldl Document.remove state.doc,
        state.outlet.unlink view.id link⟩ : OutletState)

/-- Put nodes in front of another one by one. -/
def insertNodes (parent before : NodeId) : List NodeId → OutletOp Unit
  | [] => pure ()
  | node :: rest => do
      let state ← get
      match state.doc.insertBefore parent node (some before) with
      | .error fault => throw (.hierarchy fault)
      | .ok doc =>
          set { state with doc }
          insertNodes parent before rest

def insertBetween (view : View) (previous next : Option ViewId) : OutletOp Unit := do
  let state ← get
  match state.doc.parent? state.outlet.anchor with
  | none => throw .detachedAnchor
  | some parent =>
      insertNodes parent (state.outlet.nodeBehind next) view.nodes
      modify fun state => { state with outlet := state.outlet.link view previous next }

def append (view : View) : OutletOp Unit := do
  checkInsertable view
  detach view
  insertBetween view (← get).outlet.last none

def prepend (view : View) : OutletOp Unit := do
  checkInsertable view
  detach view
  insertBetween view none (← get).outlet.first

def insertBefore (view reference : View) : OutletOp Unit := do
  checkReference view reference
  checkInsertable view
  detach view
  insertBetween view ((← get).outlet.previous? reference.id) (some reference.id)

def insertAfter (view reference : View) : OutletOp Unit := do
  checkReference view reference
  checkInsertable view
  detach view
  insertBetween view (some reference.id) ((← get).outlet.next? reference.id)

def remove (view : View) : OutletOp Unit := do
  let state ← get
  if state.outlet.contains view.id then detach view else throw .viewNotInOutlet

end Outlet

end ViewTemplates
