import ViewTemplates.Compiler.Marking
import ViewTemplates.Markup.Nesting

/-!
Compilers: a registry and a configuration with the component views made so far. The markup of a
component is compiled at most once, when an element needs its view first, and never inside itself.
-/

namespace ViewTemplates

namespace Setup

def compileForest (setup : Setup) (viewOf : DirectiveRef → ComponentSource → Work Factory)
    (forest : Forest NodeKind) : Work Factory := fun progress =>
  match setup.mark viewOf (forest.map fun kind => ((), kind)) ⟨progress, []⟩ with
  | .error error stage => .error error stage.progress
  | .ok marks stage =>
      let factory := Factory.ofMarks [] marks
      .ok factory
        { stage.progress with
          events := stage.progress.events ++
            [.compiled marks.roots.length factory.binders.length] }

def compileMarkup (setup : Setup) (viewOf : DirectiveRef → ComponentSource → Work Factory)
    (source : String) : Work Factory :=
  match Markup.parse source with
  | .error error => throw (.markup error)
  | .ok (forest, events) => do
      Work.report events
      setup.compileForest viewOf forest

/-- Work on a component's markup: its index is among those being built as long as the work lasts. -/
def building (index : Nat) (work : Work α) : Work α := fun progress =>
  match work { progress with building := index :: progress.building } with
  | .ok value progress => .ok value { progress with building := progress.building.tail }
  | .error error progress => .error error { progress with building := progress.building.tail }

/-- The view of a component: given, made before, or compiled now. Components that need each other
are at most this many levels deep; beyond that one of them would have to need itself. -/
def viewOf (setup : Setup) : Nat → DirectiveRef → ComponentSource → Work Factory
  | _, _, .compiled factory => pure factory
  | levels, directive, .inline markup => do
      let progress ← get
      match progress.views.lookup directive.index with
      | some factory => pure factory
      | none =>
          if progress.building.contains directive.index then
            throw (.recursiveComponent directive.name)
          else match levels with
            | 0 => throw (.recursiveComponent directive.name)
            | levels + 1 => do
                Work.report [.compilingComponent directive]
                let factory ← building directive.index
                  (setup.compileMarkup (setup.viewOf levels) markup)
                modify fun progress =>
                  { progress with views := (directive.index, factory) :: progress.views }
                pure factory

end Setup

structure Compiler where
  setup : Setup
  views : List (Nat × Factory)
  building : List Nat

structure Compilation (α : Type) where
  outcome : Except Error α
  compiler : Compiler
  events : List Event

namespace Compiler

def new (registry : Registry) : Compiler := ⟨⟨registry, .default⟩, [], []⟩

def withConfig (registry : Registry) (config : Config) : Except Error Compiler :=
  match config.validate with
  | .error fault => .error (.invalidConfig fault)
  | .ok () => .ok ⟨⟨registry, config⟩, [], []⟩

/-- Component views for this compiler. No component is built inside itself, so there are never more
levels than directives. -/
def viewOf (compiler : Compiler) : DirectiveRef → ComponentSource → Work Factory :=
  compiler.setup.viewOf (compiler.setup.registry.size + 1)

def start (compiler : Compiler) : Progress := ⟨compiler.views, compiler.building, []⟩

def stop (compiler : Compiler) (progress : Progress) : Compiler :=
  { compiler with views := progress.views, building := progress.building }

def compileHtml (compiler : Compiler) (source : String) : Compilation Factory :=
  match compiler.setup.compileMarkup compiler.viewOf source compiler.start with
  | .ok factory progress => ⟨.ok factory, compiler.stop progress, progress.events⟩
  | .error error progress => ⟨.error error, compiler.stop progress, progress.events⟩

end Compiler

end ViewTemplates
