import ViewTemplates.Factory.Basic

/-!
Marked templates: every node with what the compiler decided about it. The binders of a template are
read off its marks; an element's index is its number among the marked elements in document order.
-/

namespace ViewTemplates

inductive Mark (φ : Type) where
  /-- An element that was looked at, with its directives. -/
  | element (kind : NodeKind) (decorators : List DirectiveRef) (role : Role φ)
  /-- A text to bind, or the anchor of a template element. -/
  | slot (kind : NodeKind) (slot : SlotKind φ)
  /-- A node without any binding. -/
  | unbound (kind : NodeKind)

namespace Mark

def kind : Mark φ → NodeKind
  | element kind _ _ | slot kind _ | unbound kind => kind

/-- The bound texts and anchors of a row, whose first node has the given position. -/
def slotsFrom (position : Nat) : Forest (Mark φ) → List (Slot φ)
  | .nil => []
  | .cons (.slot _ kind) _ rest => ⟨position, kind⟩ :: slotsFrom (position + 1) rest
  | .cons _ _ rest => slotsFrom (position + 1) rest

/-- What is bound at each marked element, in document order; the top row has the given level. -/
def bindersFrom (level : Nat) : Forest (Mark φ) → List (ElementBinder φ)
  | .nil => []
  | .cons (.element _ decorators role) below rest =>
      ⟨level, none, decorators, role, slotsFrom 0 below⟩ ::
        (bindersFrom (level + 1) below ++ bindersFrom level rest)
  | .cons _ _ rest => bindersFrom level rest

/-- The binder of the top level, and those of the elements at which anything is bound. -/
def binders (decorators : List DirectiveRef) (marks : Forest (Mark φ)) :
    List (ElementBinder φ) :=
  ⟨0, none, decorators, .decorated, slotsFrom 0 marks⟩ ::
    ((bindersFrom 1 marks).zipIdx.map fun (binder, index) =>
      { binder with elementIndex := some index }).filter ElementBinder.hasBindings

end Mark

/-- The factory of a marked template; the decorators go to the top level. -/
def Factory.ofMarks (decorators : List DirectiveRef) (marks : Forest (Mark Factory)) : Factory :=
  .mk (marks.map Mark.kind) (Mark.binders decorators marks)

end ViewTemplates
