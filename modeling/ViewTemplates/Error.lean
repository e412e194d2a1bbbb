import ViewTemplates.Config
import ViewTemplates.Document.Edit
import ViewTemplates.Markup.Tokens
import ViewTemplates.Selector.Parser

/-!
Everything that can go wrong, by cause.
-/

namespace ViewTemplates

inductive Error where
  | invalidSelector (selector : String) (fault : Selector.Fault)
  | invalidConfig (fault : ConfigFault)
  | markup (error : Markup.SyntaxError)
  | conflictingDirectives (element first second : String)
  | recursiveComponent (name : String)
  | viewNotInOutlet
  | detachedAnchor
  | hierarchy (fault : HierarchyFault)
  deriving Repr, DecidableEq

def Error.message : Error → String
  | invalidSelector selector fault => s!"invalid selector \"{selector}\": {fault.message}"
  | invalidConfig fault => s!"invalid compiler configuration: {fault.message}"
  | markup error => s!"template parse error: {error.message}"
  | conflictingDirectives element first second =>
      s!"element <{element}> is claimed by both \"{first}\" and \"{second}\""
  | recursiveComponent name =>
      s!"component \"{name}\" instantiates itself through its own template"
  | viewNotInOutlet => "view is not present in this view port"
  | detachedAnchor => "view port anchor is not attached to a parent node"
  | hierarchy fault => s!"invalid node hierarchy: {fault.message}"

end ViewTemplates
