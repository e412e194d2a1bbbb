import ViewTemplates.Factory.Basic

/-!
Directives: what is registered under a selector.
-/

namespace ViewTemplates

/-- The view of a component: markup to compile on first use, or a factory. -/
inductive ComponentSource where
  | inline (markup : String)
  | compiled (factory : Factory)

/-- A decorator leaves an element's content alone, a template takes it away, and a component brings
its own view along. -/
inductive DirectiveKind where
  | decorator
  | template
  | component (source : ComponentSource)

def DirectiveKind.label : DirectiveKind → String
  | decorator => "decorator"
  | template => "template"
  | component _ => "component"

structure Directive where
  name : String
  selector : String
  kind : DirectiveKind

end ViewTemplates
