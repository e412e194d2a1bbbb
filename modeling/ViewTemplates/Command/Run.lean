import ViewTemplates.Command.Arguments
import ViewTemplates.Compiler.Basic
import ViewTemplates.DirectivesFile
import ViewTemplates.Factory.Describe
import ViewTemplates.Json.Printer

/-!
The command: compile a template file with the directives of a directives file, and show the factory.
-/

namespace ViewTemplates.Command

inductive Failure where
  | unreadableDirectives (path : String)
  | malformedDirectives (path : String)
  | registration (error : RegistrationError)
  | unreadableTemplate (path : String)
  | compilation (path : String) (error : Error)
  deriving Repr, DecidableEq

/-- One reason in a chain: a sentence, a file that cannot be read, or JSON that does not fit. -/
inductive Reason where
  | sentence (text : String)
  | unreadable
  | malformed
  deriving Repr, DecidableEq

/-- The reasons, each the cause of the one before it. -/
def registrationReasons : RegistrationError → List Reason
  | .config fault => [.sentence (Error.invalidConfig fault).message]
  | .strayTemplate name =>
      [.sentence s!"directive {name} is not a component and cannot have a template"]
  | .templateChoice name =>
      [.sentence s!"component {name} needs exactly one of template and templateUrl"]
  | .unreadable name path =>
      [.sentence s!"failed to read template of {name} from {path}", .unreadable]
  | .directive name error =>
      [.sentence s!"failed to register directive {name}", .sentence error.message]

/-- The reasons, each the cause of the one before it. -/
def Failure.reasons : Failure → List Reason
  | .unreadableDirectives path =>
      [.sentence s!"failed to read directives file {path}", .unreadable]
  | .malformedDirectives path => [.sentence s!"invalid directives file {path}", .malformed]
  | .registration error => registrationReasons error
  | .unreadableTemplate path => [.sentence s!"failed to read template {path}", .unreadable]
  | .compilation path error =>
      [.sentence s!"failed to compile {path}", .sentence error.message]

def loadSetup (files : Files) (path : String) : Except Failure Setup :=
  match files path with
  | none => .error (.unreadableDirectives path)
  | some content =>
      match DirectivesFile.parse content with
      | none => .error (.malformedDirectives path)
      | some file =>
          match file.registry files (Path.directory path) with
          | .error error => .error (.registration error)
          | .ok registry => .ok ⟨registry, file.config⟩

def compileTemplate (files : Files) (template : String) (directives : Option String) :
    Except Failure (Factory × List Event) := do
  let setup ← match directives with
    | some path => loadSetup files path
    | none => pure ⟨.empty, .default⟩
  match files template with
  | none => throw (.unreadableTemplate template)
  | some source =>
      let compilation := Compiler.compileHtml ⟨setup, [], []⟩ source
      match compilation.outcome with
      | .error error => throw (.compilation template error)
      | .ok factory => pure (factory, compilation.events)

/-- The files that have to be known for an invocation, as far as the known ones tell. -/
def paths (files : Files) : Invocation → List String
  | .compile template (some path) _ =>
      let named := ((files path).bind DirectivesFile.parse).map (·.paths (Path.directory path))
      template :: path :: named.getD []
  | .compile template none _ => [template]
  | _ => []

structure Exit where
  status : Nat
  output : String
  reasons : List Reason
  events : List Event
  deriving Repr, DecidableEq

def usage : String :=
  "Usage: ngt [--directives FILE] [--json] TEMPLATE\n"

def run (files : Files) : Invocation → Exit
  | .version => ⟨0, "ngt 0.1.0\n", [], []⟩
  | .help => ⟨0, usage, [], []⟩
  | .invalid => ⟨2, "", [.sentence "unusable arguments"], []⟩
  | .compile template directives json =>
      match compileTemplate files template directives with
      | .error failure => ⟨1, "", failure.reasons, []⟩
      | .ok (factory, events) =>
          ⟨0, if json then factory.describe.pretty 0 ++ "\n" else factory.outline, [], events⟩

end ViewTemplates.Command
