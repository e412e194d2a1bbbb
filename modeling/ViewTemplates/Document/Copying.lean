import ViewTemplates.Document.Subtree

/-!
Deep copies made node by node: a copy is created, then the children of the original are copied and
appended one after another, while the document grows.
-/

namespace ViewTemplates.Document

/-- Append a node to the children of another one; nothing is checked. -/
def pushChild (doc : Document) (parent child : NodeId) : Document :=
  (doc.setParent child (some parent)).setChildren parent (doc.children parent ++ [child])

/-- Copy a node with what is below it, down to this many levels, and give its copy. A node is read
at the moment when it is copied, from the document that is then the source: another document, or the
growing one. -/
def copyWithin (source : Document → Document) : Nat → Document → NodeId → NodeId × Document
  | 0, doc, _ => (doc.size, doc)
  | limit + 1, doc, node =>
      let created := doc.create ((source doc).kind node)
      (doc.size, ((source created).children node).foldl
        (fun next child =>
          let (copy, grown) := copyWithin source limit next child
          grown.pushChild doc.size copy)
        created)

end ViewTemplates.Document
