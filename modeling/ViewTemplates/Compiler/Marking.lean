import ViewTemplates.Compiler.Claim
import ViewTemplates.Compiler.Mark

/-!
Marking a template. Nodes are visited in document order, and each element is asked for its
directives. The content of an element that a template directive claims becomes a factory of its own,
and an anchor comment takes its place: inside the element, or instead of it where the element is a
template element. A component's view is made before the element's own content is visited.

The nodes carry labels, and every change to them is noted as an edit at the moment it happens, so
that the edits made before an error are known too.
-/

namespace ViewTemplates

structure Setup where
  registry : Registry
  config : Config

/-- What a compilation carries along, across errors too: the component views made so far, the
components whose markup is being compiled, the innermost first, and the events. -/
structure Progress where
  views : List (Nat × Factory)
  building : List Nat
  events : List Event

/-- A change to the labelled nodes: take a node's content out, put an anchor into it, or put an
anchor in its place. -/
inductive Edit (ι : Type) where
  | takeContent (node : ι)
  | anchorInside (node : ι)
  | anchorInstead (node : ι)
  deriving Repr, DecidableEq

structure Stage (ι : Type) where
  progress : Progress
  edits : List (Edit ι)

/-- Work that makes progress; the progress before an error stays. -/
abbrev Work := EStateM Error Progress

def Work.report (events : List Event) : Work Unit :=
  modify fun progress => { progress with events := progress.events ++ events }

abbrev Marking (ι : Type) := EStateM Error (Stage ι)

namespace Marking

def edit (change : Edit ι) : Marking ι Unit :=
  modify fun stage => { stage with edits := stage.edits ++ [change] }

def lift (work : Work α) : Marking ι α := fun stage =>
  match work stage.progress with
  | .ok value progress => .ok value { stage with progress }
  | .error error progress => .error error { stage with progress }

end Marking

namespace Setup

def isTemplateTag (setup : Setup) (name : String) : Bool :=
  Text.sameLetters name setup.config.templateTag

def anchor (setup : Setup) : NodeKind := .comment setup.config.anchorText

def markOther (setup : Setup) (kind : NodeKind) : Mark Factory :=
  match kind with
  | .text value =>
      if setup.config.interpolation.requiresBinding value then .slot kind .text
      else .unbound kind
  | _ => .unbound kind

/-- Mark a forest; component views come from the given work. What lies below a node that is no
element is not visited. -/
def mark (setup : Setup) (viewOf : DirectiveRef → ComponentSource → Work Factory) :
    Forest (ι × NodeKind) → Marking ι (Forest (Mark Factory))
  | .nil => pure .nil
  | .cons (node, kind) below rest => do
      let head ← match kind with
        | .element name attributes => do
            let directives := setup.registry.matching name attributes
            let decorators := decoratorsOf directives
            match soleClaim name directives with
            | .error error => throw error
            | .ok none => do
                let inner ← setup.mark viewOf below
                pure (Forest.tree (Mark.element kind decorators .decorated) inner)
            | .ok (some (.component directive source)) => do
                let view ← Marking.lift (viewOf directive source)
                let inner ← setup.mark viewOf below
                pure (Forest.tree (Mark.element kind decorators (.component ⟨directive, view⟩))
                  inner)
            | .ok (some (.template directive)) => do
                Marking.edit (.takeContent node)
                let content ← setup.mark viewOf below
                let instead := setup.isTemplateTag name
                let view := Factory.ofMarks (if instead then decorators else []) content
                Marking.lift (Work.report [.compiled content.roots.length view.binders.length])
                if instead then do
                  Marking.edit (.anchorInstead node)
                  pure (Forest.leaf (Mark.slot setup.anchor (.anchor ⟨directive, view⟩)))
                else do
                  Marking.edit (.anchorInside node)
                  pure (Forest.tree (Mark.element kind decorators (.template ⟨directive, view⟩))
                    (.leaf (.unbound setup.anchor)))
        | _ =>
            pure (Forest.tree (setup.markOther kind) (below.map fun entry => .unbound entry.2))
      let tail ← setup.mark viewOf rest
      pure (head ++ tail)

end Setup

end ViewTemplates
