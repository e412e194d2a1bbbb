import ViewTemplates.Directive.Basic
import ViewTemplates.Error
import ViewTemplates.Event
import ViewTemplates.Selector.Index

/-!
The registry of directives. A directive is registered with all alternatives of its selector, and
found on every element that one of them accepts.
-/

namespace ViewTemplates

structure Registry where
  directives : List Directive
  index : SelectorIndex Nat

namespace Registry

def empty : Registry := ⟨[], .empty⟩

def size (registry : Registry) : Nat := registry.directives.length

def get? (registry : Registry) (index : Nat) : Option Directive := registry.directives[index]?

def register (registry : Registry) (directive : Directive) :
    Except Error (Registry × List Event) :=
  match Selector.parse directive.selector with
  | .error fault => .error (.invalidSelector directive.selector fault)
  | .ok selectors =>
      .ok (⟨registry.directives ++ [directive],
          selectors.foldl (fun index selector => index.add selector registry.size)
            registry.index⟩,
        [.registered directive.kind.label directive.name directive.selector])

/-- Register from the left, up to the first failure; the events before it are kept. -/
def registerAll (registry : Registry) : List Directive → Except Error Registry × List Event
  | [] => (.ok registry, [])
  | directive :: rest =>
      match registry.register directive with
      | .error error => (.error error, [])
      | .ok (next, events) =>
          let (result, later) := next.registerAll rest
          (result, events ++ later)

/-- Keep one of equal neighbours. -/
def dropRepeats : List Nat → List Nat
  | [] => []
  | index :: rest =>
      match dropRepeats rest with
      | [] => [index]
      | next :: later => if index = next then next :: later else index :: next :: later

/-- The directives on an element with their indices, in the order of registration. -/
def matching (registry : Registry) (name : String) (attributes : Attributes) :
    List (Nat × Directive) :=
  (dropRepeats (registry.index.lookup (.ofElement name attributes))).filterMap fun index =>
    (registry.get? index).map (index, ·)

def matchingNode (registry : Registry) : NodeKind → List (Nat × Directive)
  | .element name attributes => registry.matching name attributes
  | _ => []

end Registry

end ViewTemplates
