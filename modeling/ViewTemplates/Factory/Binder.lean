import ViewTemplates.Directive.Ref
import ViewTemplates.Node

/-!
Binders say where a template has to be connected: which elements carry directives, and which texts
and anchors stand at which position among their siblings. What a directive brings along is open, so
that a binder can hold a compiled template, or what becomes of it.
-/

namespace ViewTemplates

/-- A directive and the view that it instantiates. -/
structure Binding (φ : Type) where
  directive : DirectiveRef
  view : φ
  deriving DecidableEq

inductive Role (φ : Type) where
  | decorated
  | template (binding : Binding φ)
  | component (binding : Binding φ)
  deriving DecidableEq

inductive SlotKind (φ : Type) where
  | text
  | anchor (binding : Binding φ)
  deriving DecidableEq

/-- A bound node that is no element, by its index among its siblings. -/
structure Slot (φ : Type) where
  position : Nat
  kind : SlotKind φ
  deriving DecidableEq

/-- What is bound at an element, or, without an element index, at the top level. The index counts
the elements of the template in document order. -/
structure ElementBinder (φ : Type) where
  level : Nat
  elementIndex : Option Nat
  decorators : List DirectiveRef
  role : Role φ
  slots : List (Slot φ)
  deriving DecidableEq

def Binding.map (f : φ → ψ) (binding : Binding φ) : Binding ψ :=
  ⟨binding.directive, f binding.view⟩

namespace Role

def map (f : φ → ψ) : Role φ → Role ψ
  | decorated => .decorated
  | template binding => .template (binding.map f)
  | component binding => .component (binding.map f)

theorem map_eq_decorated {f : φ → ψ} {role : Role φ} :
    role.map f = .decorated ↔ role = .decorated := by
  cases role <;> simp [map]

def binding? : Role φ → Option (Binding φ)
  | decorated => none
  | template binding | component binding => some binding

end Role

namespace SlotKind

def map (f : φ → ψ) : SlotKind φ → SlotKind ψ
  | text => .text
  | anchor binding => .anchor (binding.map f)

theorem map_eq_text {f : φ → ψ} {kind : SlotKind φ} : kind.map f = .text ↔ kind = .text := by
  cases kind <;> simp [map]

def binding? : SlotKind φ → Option (Binding φ)
  | text => none
  | anchor binding => some binding

end SlotKind

def Slot.map (f : φ → ψ) (slot : Slot φ) : Slot ψ := ⟨slot.position, slot.kind.map f⟩

namespace ElementBinder

def map (f : φ → ψ) (binder : ElementBinder φ) : ElementBinder ψ :=
  ⟨binder.level, binder.elementIndex, binder.decorators, binder.role.map f,
    binder.slots.map (·.map f)⟩

def isRoot (binder : ElementBinder φ) : Bool := binder.elementIndex.isNone

def hasBindings (binder : ElementBinder φ) : Bool :=
  !binder.decorators.isEmpty || binder.role.binding?.isSome || !binder.slots.isEmpty

def directiveNames (binder : ElementBinder φ) : List String :=
  binder.decorators.map (·.name) ++
    (binder.role.binding?.map fun binding => binding.directive.name).toList

end ElementBinder

end ViewTemplates
