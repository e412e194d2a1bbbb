import ViewTemplates.Document.Order

/-!
Changes to a document: what a node is, and where it hangs.
-/

namespace ViewTemplates

inductive HierarchyFault where
  | leafParent
  | cycle
  | foreignReference
  | viewHoldsParent
  | viewHoldsAnchor
  deriving Repr, DecidableEq

def HierarchyFault.message : HierarchyFault → String
  | leafParent => "text and comment nodes cannot have children"
  | cycle => "a node cannot be inserted into itself or its descendants"
  | foreignReference => "reference node is not a child of the given parent"
  | viewHoldsParent => "a view cannot contain the parent of its own view port"
  | viewHoldsAnchor => "a view cannot contain the anchor of its own view port"

namespace Document

/-- Give an element's attribute a value; other nodes stay as they are. -/
def setAttribute (doc : Document) (node : NodeId) (name value : String) : Document :=
  match doc.kind node with
  | .element tag attributes => doc.setKind node (.element tag (attributes.set name value))
  | _ => doc

def removeAttribute (doc : Document) (node : NodeId) (name : String) : Document :=
  match doc.kind node with
  | .element tag attributes => doc.setKind node (.element tag (attributes.erase name))
  | _ => doc

/-- Give a text or a comment another value; other nodes stay as they are. -/
def setText (doc : Document) (node : NodeId) (value : String) : Document :=
  match doc.kind node with
  | .text _ => doc.setKind node (.text value)
  | .comment _ => doc.setKind node (.comment value)
  | _ => doc

def remove (doc : Document) (node : NodeId) : Document :=
  match doc.parent? node with
  | none => doc
  | some parent =>
      (doc.setParent node none).setChildren parent ((doc.children parent).filter (· != node))

/-- Put a node in front of the reference, or at the end if that is not in the list. -/
def placeBefore (node reference : NodeId) : List NodeId → List NodeId
  | [] => [node]
  | child :: rest =>
      if child = reference then node :: child :: rest
      else child :: placeBefore node reference rest

def place (node : NodeId) (reference : Option NodeId) (children : List NodeId) : List NodeId :=
  match reference with
  | some sibling => placeBefore node sibling children
  | none => children ++ [node]

/-- Move a node below the parent, in front of the reference. A node in front of itself stays where
it is. -/
def insertBefore (doc : Document) (parent node : NodeId) (reference : Option NodeId) :
    Except HierarchyFault Document :=
  if (doc.kind parent).isContainer = false then .error .leafParent
  else if doc.isAncestorOf node parent then .error .cycle
  else if reference = some node then .ok doc
  else if reference.any fun sibling => doc.parent? sibling != some parent then
    .error .foreignReference
  else
    let out := doc.remove node
    .ok ((out.setChildren parent (place node reference (out.children parent))).setParent node
      (some parent))

def appendChild (doc : Document) (parent node : NodeId) : Except HierarchyFault Document :=
  doc.insertBefore parent node none

/-- Put a node in front of another and take that one out. -/
def replaceChild (doc : Document) (parent new old : NodeId) : Except HierarchyFault Document :=
  match doc.insertBefore parent new (some old) with
  | .error fault => .error fault
  | .ok next => .ok (next.remove old)

def takeChildren (doc : Document) (node : NodeId) : Document :=
  (doc.children node).foldl (fun out child => out.setParent child none) (doc.setChildren node [])

end Document

end ViewTemplates
