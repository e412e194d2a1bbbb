import ViewTemplates.Document.Subtree
import ViewTemplates.Factory.Basic

/-!
Views: nodes made from a factory, and where its binders are found among them. Elements are found by
their number in document order, texts and anchors by their position among their siblings; what the
nodes are is not looked at.
-/

namespace ViewTemplates

abbrev ViewId := Nat

structure LiveBinder where
  binder : Nat
  element : Option NodeId
  slots : List NodeId
  anchor : Option NodeId
  deriving Repr, DecidableEq

structure View where
  id : ViewId
  nodes : List NodeId
  binders : List LiveBinder
  deriving Repr, DecidableEq

namespace Factory

def cloneNodes (factory : Factory) (doc : Document) : List NodeId × Document :=
  doc.graft none factory.template

def locate (elements : List NodeId) (binder : ElementBinder Factory) : Option NodeId :=
  binder.elementIndex.bind fun index => elements[index]?

/-- The nodes among which a binder's texts and anchors stand. -/
def siblings (doc : Document) (nodes elements : List NodeId) (binder : ElementBinder Factory) :
    List NodeId :=
  match binder.elementIndex with
  | none => nodes
  | some _ =>
      match locate elements binder with
      | some element => doc.children element
      | none => []

def instantiateBinder (doc : Document) (nodes elements : List NodeId) (index : Nat)
    (binder : ElementBinder Factory) : LiveBinder where
  binder := index
  element := locate elements binder
  slots := binder.slots.filterMap fun slot => (siblings doc nodes elements binder)[slot.position]?
  anchor :=
    match binder.role with
    | .template _ => (locate elements binder).bind fun element => doc.child? element 0
    | _ => none

/-- The view of nodes that have the shape of the template. -/
def instantiate (factory : Factory) (id : ViewId) (doc : Document) (nodes : List NodeId) : View :=
  let elements := doc.elementsInOrder nodes
  ⟨id, nodes, factory.binders.zipIdx.map fun (binder, index) =>
    instantiateBinder doc nodes elements index binder⟩

def createView (factory : Factory) (id : ViewId) (doc : Document) : View × Document :=
  let (nodes, next) := factory.cloneNodes doc
  (factory.instantiate id next nodes, next)

end Factory

end ViewTemplates
