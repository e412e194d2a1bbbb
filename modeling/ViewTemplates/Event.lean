import ViewTemplates.Directive.Ref

/-!
What the library reports on the way: leniency of the markup reader, registrations and compilations.
Every operation returns its events in order.
-/

namespace ViewTemplates

inductive Level where
  | warn
  | debug
  deriving Repr, DecidableEq

def Level.label : Level → String
  | warn => "warn"
  | debug => "debug"

inductive Event where
  /-- An end tag that matches no open element was skipped. -/
  | strayEndTag (name : String) (offset : Nat)
  /-- An end tag closed elements other than its own. -/
  | impliedEndTags (name : String) (offset count : Nat)
  /-- The input ended inside this element, the outermost open one. -/
  | openAtEnd (name : String)
  | registered (kind name selector : String)
  | compilingComponent (directive : DirectiveRef)
  | compiled (nodes binders : Nat)
  deriving Repr, DecidableEq

namespace Event

def level : Event → Level
  | strayEndTag .. | impliedEndTags .. => .warn
  | _ => .debug

def message : Event → String
  | strayEndTag name offset => s!"ignoring unexpected end tag </{name}> at offset {offset}"
  | impliedEndTags name offset count =>
      s!"end tag </{name}> at offset {offset} implicitly closes {count} element(s)"
  | openAtEnd name => s!"closing <{name}> and its open descendants at end of input"
  | registered kind name selector =>
      s!"registered {kind} directive {name} with selector {selector}"
  | compilingComponent directive => s!"compiling inline template of component {directive.name}"
  | compiled nodes binders =>
      s!"compiled {nodes} top-level node(s) into {binders} element binder(s)"

def line (event : Event) : String := s!"{event.level.label} {event.message}"

end Event

end ViewTemplates
