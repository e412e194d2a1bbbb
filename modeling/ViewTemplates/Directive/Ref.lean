/-!
References to directives, for whatever speaks of a directive without holding it.
-/

namespace ViewTemplates

/-- A directive by its place in the registry and its name. -/
structure DirectiveRef where
  index : Nat
  name : String
  deriving Repr, DecidableEq

end ViewTemplates
