import ViewTemplates.Document.Edit
import ViewTemplates.Markup.Nesting
import ViewTemplates.Markup.Printer

/-!
Whole subtrees: the forest below a list of nodes, and a forest put into a document as new nodes.
Copies, imports and parsed markup all come into a document through `graft`.
-/

namespace ViewTemplates.Document

/-- The nodes with everything below them, down to this many levels. -/
def forestWithin (doc : Document) : Nat → List NodeId → Forest (NodeId × NodeKind)
  | 0, _ => .nil
  | limit + 1, nodes =>
      nodes.foldr
        (fun node rest =>
          .cons (node, doc.kind node) (doc.forestWithin limit (doc.children node)) rest)
        .nil

def forest (doc : Document) (nodes : List NodeId) : Forest (NodeId × NodeKind) :=
  doc.forestWithin (doc.size + 1) nodes

def kinds (doc : Document) (nodes : List NodeId) : Forest NodeKind :=
  (doc.forest nodes).map Prod.snd

def html (doc : Document) (nodes : List NodeId) : String := Markup.html (doc.kinds nodes)

/-- Create the nodes of a forest in document order, the top row below the given parent. The
parent's own children are not touched. -/
def graft (doc : Document) (parent : Option NodeId) :
    Forest NodeKind → List NodeId × Document
  | .nil => ([], doc)
  | .cons kind below rest =>
      let node := doc.size
      let (children, inner) := ((doc.create kind).setParent node parent).graft (some node) below
      let (siblings, outer) := (inner.setChildren node children).graft parent rest
      (node :: siblings, outer)

/-- Copy a node with everything below it; the copy has no parent. -/
def cloneNode (doc : Document) (node : NodeId) : NodeId × Document :=
  (doc.size, (doc.graft none (doc.kinds [node])).2)

/-- Copy a node of another document with everything below it; the copy has no parent. -/
def importNode (doc source : Document) (node : NodeId) : NodeId × Document :=
  (doc.size, (doc.graft none (source.kinds [node])).2)

/-- Put a forest below a new fragment and give its top row. -/
def adopt (doc : Document) (forest : Forest NodeKind) : List NodeId × Document :=
  let root := doc.size
  let (nodes, next) := (doc.create .fragment).graft (some root) forest
  (nodes, next.setChildren root nodes)

/-- Read markup below a new fragment and give its top-level nodes. -/
def parse (doc : Document) (source : String) :
    Except Markup.SyntaxError (List NodeId × Document × List Event) :=
  match Markup.parse source with
  | .error error => .error error
  | .ok (forest, events) =>
      let (nodes, next) := doc.adopt forest
      .ok (nodes, next, events)

end ViewTemplates.Document
