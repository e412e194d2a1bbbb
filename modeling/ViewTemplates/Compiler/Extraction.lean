import ViewTemplates.Compiler.Basic
import ViewTemplates.Document.Subtree

/-!
Compiling nodes of a document in place: the content of every claimed element is taken out of the
document, and an anchor is put there.
-/

namespace ViewTemplates

/-- Make the change in a document. An anchor is a new comment. -/
def Edit.apply (anchor : NodeKind) (doc : Document) : Edit NodeId → Document
  | .takeContent node => doc.takeChildren node
  | .anchorInside node =>
      let next := doc.create anchor
      match next.appendChild node doc.size with
      | .ok changed => changed
      | .error _ => next
  | .anchorInstead node =>
      let next := doc.create anchor
      match next.parent? node with
      | none => next
      | some parent =>
          match next.replaceChild parent doc.size node with
          | .ok changed => changed
          | .error _ => next

/-- The nodes of a compiled template, in the document that it was compiled in, and its binders. -/
structure Compiled where
  nodes : List NodeId
  binders : List (ElementBinder Factory)

structure Site where
  progress : Progress
  doc : Document

namespace Compiler

def isReplaced : Forest (Mark Factory) → Bool
  | .cons (.slot _ (.anchor _)) _ _ => true
  | _ => false

/-- Mark one node and everything below it, and make the edits, those before an error too. The node
itself, or the anchor instead of it, is given with the marks. -/
def compileNode (compiler : Compiler) (node : NodeId) :
    EStateM Error Site (NodeId × Forest (Mark Factory)) := fun site =>
  let edited (edits : List (Edit NodeId)) : Document :=
    edits.foldl (Edit.apply compiler.setup.anchor) site.doc
  match compiler.setup.mark compiler.viewOf (site.doc.forest [node]) ⟨site.progress, []⟩ with
  | .error error stage => .error error ⟨stage.progress, edited stage.edits⟩
  | .ok marks stage =>
      let doc := edited stage.edits
      .ok (if isReplaced marks then doc.size - 1 else node, marks) ⟨stage.progress, doc⟩

def compileEach (compiler : Compiler) :
    List NodeId → EStateM Error Site (List NodeId × Forest (Mark Factory))
  | [] => pure ([], .nil)
  | node :: rest => do
      let (place, marks) ← compiler.compileNode node
      let (places, later) ← compiler.compileEach rest
      pure (place :: places, marks ++ later)

def compileNodes (compiler : Compiler) (nodes : List NodeId) : EStateM Error Site Compiled := do
  let (places, marks) ← compiler.compileEach nodes
  let binders := Mark.binders [] marks
  modify fun site =>
    { site with
      progress.events :=
        site.progress.events ++ [.compiled places.length binders.length] }
  pure ⟨places, binders⟩

def onDocument (compiler : Compiler) (doc : Document) (work : EStateM Error Site α) :
    Compilation α × Document :=
  match work ⟨compiler.start, doc⟩ with
  | .ok value site =>
      (⟨.ok value, compiler.stop site.progress, site.progress.events⟩, site.doc)
  | .error error site =>
      (⟨.error error, compiler.stop site.progress, site.progress.events⟩, site.doc)

/-- Compile nodes of a document in place. -/
def compile (compiler : Compiler) (doc : Document) (nodes : List NodeId) :
    Compilation Compiled × Document :=
  compiler.onDocument doc (compiler.compileNodes nodes)

/-- Compile nodes of a document in place, and make a factory with a copy of them. -/
def compileFactory (compiler : Compiler) (doc : Document) (nodes : List NodeId) :
    Compilation Factory × Document :=
  compiler.onDocument doc do
    let compiled ← compiler.compileNodes nodes
    let site ← get
    pure (.mk (site.doc.kinds compiled.nodes) compiled.binders)

end Compiler

end ViewTemplates
