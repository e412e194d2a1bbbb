import ViewTemplates.Document.Basic

/-!
Places in a document: siblings, ancestors, and the elements under a list of nodes in document order.
-/

namespace ViewTemplates.Document

def indexInParent? (doc : Document) (node : NodeId) : Option Nat :=
  (doc.parent? node).bind fun parent => (doc.children parent).findIdx? (· == node)

def nextSibling? (doc : Document) (node : NodeId) : Option NodeId := do
  doc.child? (← doc.parent? node) ((← doc.indexInParent? node) + 1)

def previousSibling? (doc : Document) (node : NodeId) : Option NodeId := do
  match ← doc.indexInParent? node with
  | 0 => none
  | index + 1 => doc.child? (← doc.parent? node) index

/-- The node, its parent, and so on, this many at most. -/
def lineageWithin (doc : Document) : Nat → NodeId → List NodeId
  | 0, _ => []
  | limit + 1, node =>
      node :: match doc.parent? node with
        | some parent => doc.lineageWithin limit parent
        | none => []

def lineage (doc : Document) (node : NodeId) : List NodeId :=
  doc.lineageWithin (doc.size + 1) node

def isAncestorOf (doc : Document) (ancestor node : NodeId) : Bool :=
  (doc.lineage node).contains ancestor

/-- Visit the nodes of a stack, the top first, and put the children of each in its place; at most
this many visits. -/
def elementsWithin (doc : Document) : Nat → List NodeId → List NodeId
  | 0, _ => []
  | _ + 1, [] => []
  | limit + 1, node :: stack =>
      let rest := doc.elementsWithin limit (doc.children node ++ stack)
      if doc.isElement node then node :: rest else rest

/-- The elements among the nodes and below them, in document order. -/
def elementsInOrder (doc : Document) (nodes : List NodeId) : List NodeId :=
  doc.elementsWithin (nodes.length * doc.size + 1) nodes

end ViewTemplates.Document
