import ViewTemplates.Factory.Basic
import ViewTemplates.Json.Basic
import ViewTemplates.Markup.Printer

/-!
Two accounts of a factory with all factories in it: as a JSON value, and as an indented outline.
-/

namespace ViewTemplates.Factory

def html (factory : Factory) : String := Markup.html factory.template

/-! The JSON value. -/

def describeSlot (slot : Slot (Json String)) : Json String :=
  .object (("indexInParent", .nat slot.position) :: match slot.kind with
    | .text => [("kind", .text "text")]
    | .anchor binding =>
        [("kind", .text "templateAnchor"), ("directive", .text binding.directive.name),
          ("template", binding.view)])

def describeBinding (binding : Binding (Json String)) : Json String :=
  .object [("directive", .text binding.directive.name), ("view", binding.view)]

def describeRole : Role (Json String) → List (String × Json String)
  | .decorated => []
  | .template binding => [("template", describeBinding binding)]
  | .component binding => [("component", describeBinding binding)]

def describeBinder (binder : ElementBinder (Json String)) : Json String :=
  .object ([
    ("level", .nat binder.level),
    ("elementIndex", (binder.elementIndex.map Json.nat).getD .null),
    ("directives", .array (binder.decorators.map fun directive => .text directive.name)),
    ("nonElementBinders", .array (binder.slots.map describeSlot))] ++ describeRole binder.role)

def describe : Factory → Json String :=
  fold fun template binders =>
    .object [("html", .text (Markup.html template)),
      ("elementBinders", .array (binders.map describeBinder))]

/-! The outline, two blanks deeper for each level of nesting. -/

abbrev Outline := Nat → List String

def indented (depth : Nat) (line : String) : String :=
  String.ofList (List.replicate (2 * depth) ' ') ++ line

def outlineBinding (depth : Nat) (heading : String) (binding : Binding Outline) : List String :=
  indented (depth + 1) s!"{heading} {binding.directive.name}" :: binding.view (depth + 2)

def outlineSlot (depth : Nat) (slot : Slot Outline) : List String :=
  match slot.kind with
  | .text => [indented (depth + 1) s!"text @{slot.position}"]
  | .anchor binding => outlineBinding depth s!"anchor @{slot.position} template" binding

def outlineRole (depth : Nat) : Role Outline → List String
  | .decorated => []
  | .template binding => outlineBinding depth "template" binding
  | .component binding => outlineBinding depth "component" binding

def outlineBinder (depth index : Nat) (binder : ElementBinder Outline) : List String :=
  let target := match binder.elementIndex with
    | some element => s!"element #{element}"
    | none => "root"
  let names := match binder.directiveNames with
    | [] => ""
    | names => " [" ++ ", ".intercalate names ++ "]"
  indented depth s!"binder #{index} level {binder.level} {target}{names}" ::
    (binder.slots.flatMap (outlineSlot depth) ++ outlineRole depth binder.role)

def outlineAt : Factory → Outline :=
  fold fun template binders depth =>
    indented depth s!"template {Markup.html template}" ::
      binders.zipIdx.flatMap fun (binder, index) => outlineBinder (depth + 1) index binder

def outline (factory : Factory) : String :=
  String.join ((factory.outlineAt 0).map (· ++ "\n"))

end ViewTemplates.Factory
