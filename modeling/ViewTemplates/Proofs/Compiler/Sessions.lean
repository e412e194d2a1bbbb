import ViewTemplates.Proofs.Compiler.Attempts
import ViewTemplates.Proofs.Compiler.Sharing

/-!
A compiler in use. Whatever is compiled one after another, from texts or in documents, and however
much of it fails, the markup of a component is compiled once: not twice in one call, and never again
once it was compiled successfully. All that is bound to the component shares what came of it.
-/

namespace ViewTemplates

/-- What a compiler can be asked for. -/
inductive CompilerCall where
  | compile (doc : Document) (nodes : List NodeId)
  | compileFactory (doc : Document) (nodes : List NodeId)
  | compileHtml (source : String)

namespace Compilation

variable {α : Type} (compilation : Compilation α)

def progress : Progress :=
  ⟨compilation.compiler.views, compilation.compiler.building, compilation.events⟩

/-- The components whose markup was compiled, or begun to be. -/
def started : List Nat := compilation.progress.started

/-- The components that are not compiled again. -/
def kept : List Nat := compilation.progress.kept

end Compilation

namespace Compiler

/-- The answer to a call. Where the binders are not in a factory already, they are given with a copy
of the nodes that they are about. -/
def perform (compiler : Compiler) : CompilerCall → Compilation Factory
  | .compile doc nodes =>
      let result := compiler.compile doc nodes
      ⟨result.1.outcome.map fun compiled => .mk (result.2.kinds compiled.nodes) compiled.binders,
        result.1.compiler, result.1.events⟩
  | .compileFactory doc nodes => (compiler.compileFactory doc nodes).1
  | .compileHtml source => compiler.compileHtml source

/-- The answers to some calls one after another, failures included. -/
def performAll (compiler : Compiler) : List CompilerCall → List (Compilation Factory)
  | [] => []
  | call :: rest =>
      let answer := compiler.perform call
      answer :: answer.compiler.performAll rest

variable {compiler : Compiler} {registry : Registry} {config : Config}

/-- What a call does to a compiler: it starts components, each of them once, and none of those that
are kept. Afterwards these are kept, or their markup cannot be compiled and the call fails. -/
structure Answers (compiler : Compiler) (answer : Compilation α) : Prop where
  nodup : answer.started.Nodup
  unkept : ∀ component ∈ answer.started, component ∉ compiler.start.kept
  kept : compiler.start.kept ⊆ answer.kept
  settled : ∀ component ∈ answer.started,
    component ∈ answer.kept ∨ compiler.setup.Broken component
  complete : ∀ value, answer.outcome = .ok value → answer.started ⊆ answer.kept

theorem answers_of_ok {components : List Nat} {progress : Progress}
    (attempts : Attempts (fun _ => False) compiler.start progress components) (value : α) :
    compiler.Answers ⟨.ok value, compiler.stop progress, progress.events⟩ := by
  have started : components = progress.started := attempts.started.symm
  subst started
  exact ⟨attempts.nodup, attempts.unkept, attempts.kept,
    fun component member => .inl (attempts.mem_kept member),
    fun _ _ component member => attempts.mem_kept member⟩

theorem answers_of_error {components : List Nat} {progress : Progress}
    (attempts : Attempts compiler.setup.Broken compiler.start progress components)
    (error : Error) :
    compiler.Answers (α := α) ⟨.error error, compiler.stop progress, progress.events⟩ := by
  have started : components = progress.started := attempts.started.symm
  subst started
  exact ⟨attempts.nodup, attempts.unkept, attempts.kept, attempts.settled, nofun⟩

section calls
variable (built : registry.Built) (reached : compiler.Reached registry config)
include built reached

theorem Reached.advances_viewOf {kind : NodeKind} {directive : DirectiveRef}
    {source : ComponentSource}
    (claimed : compiler.setup.claims kind = [.component directive source]) :
    Advances (compiler.setup.Consistent []) compiler.setup.Broken id
      (compiler.viewOf directive source) :=
  Setup.advances_viewOf (reached.ascending built) (stack_viewOf _ (Nat.lt_succ_self _)) claimed
    fun _ _ => nofun

theorem Reached.answers_compileHtml (source : String) :
    compiler.Answers (compiler.compileHtml source) := by
  have advances : Advances (compiler.setup.Consistent []) compiler.setup.Broken id
      (compiler.setup.compileMarkup compiler.viewOf source) :=
    Setup.advances_compileMarkup (fun _ _ still => still.report _)
      fun _ _ _ _ _ _ _ claimed => reached.advances_viewOf built claimed
  have result := advances compiler.start (reached.consistent built)
  rw [Compiler.compileHtml]
  cases run : compiler.setup.compileMarkup compiler.viewOf source compiler.start with
  | ok factory progress =>
      rw [run] at result
      obtain ⟨_, _, attempts⟩ := result
      exact answers_of_ok attempts factory
  | error error progress =>
      rw [run] at result
      obtain ⟨_, _, attempts⟩ := result
      exact answers_of_error attempts error

theorem Reached.advances_compileNode (node : NodeId) :
    Advances (compiler.setup.Consistent []) compiler.setup.Broken Site.progress
      (compiler.compileNode node) := by
  intro site consistent
  have advances : Advances (compiler.setup.Consistent []) compiler.setup.Broken Stage.progress
      (compiler.setup.mark compiler.viewOf (site.doc.forest [node])) :=
    Setup.advances_mark (fun _ _ still => still.report _)
      fun _ _ _ _ claimed => reached.advances_viewOf built claimed
  have result := advances ⟨site.progress, []⟩ consistent
  rw [compileNode]
  cases run : compiler.setup.mark compiler.viewOf (site.doc.forest [node])
      ⟨site.progress, []⟩ with
  | ok marks stage =>
      rw [run] at result
      exact result
  | error error stage =>
      rw [run] at result
      exact result

theorem Reached.advances_compileNodes (nodes : List NodeId) :
    Advances (compiler.setup.Consistent []) compiler.setup.Broken Site.progress
      (compiler.compileNodes nodes) := by
  have each : Advances (compiler.setup.Consistent []) compiler.setup.Broken Site.progress
      (compiler.compileEach nodes) := by
    induction nodes with
    | nil => exact .pure _
    | cons node rest induction =>
        exact (reached.advances_compileNode built node).bind fun _ =>
          induction.bind fun _ => .pure _
  refine each.bind fun _ => ?_
  intro site consistent
  exact ⟨consistent.report _, [], .report _ site.progress rfl⟩

theorem Reached.answers_onDocument {work : EStateM Error Site α}
    (advances : Advances (compiler.setup.Consistent []) compiler.setup.Broken Site.progress work)
    (doc : Document) : compiler.Answers (compiler.onDocument doc work).1 := by
  have result := advances ⟨compiler.start, doc⟩ (reached.consistent built)
  rw [onDocument]
  cases run : work ⟨compiler.start, doc⟩ with
  | ok value site =>
      rw [run] at result
      obtain ⟨_, _, attempts⟩ := result
      exact answers_of_ok attempts value
  | error error site =>
      rw [run] at result
      obtain ⟨_, _, attempts⟩ := result
      exact answers_of_error attempts error

theorem Reached.answers_perform (call : CompilerCall) :
    compiler.Answers (compiler.perform call) := by
  cases call with
  | compileHtml source => exact reached.answers_compileHtml built source
  | compileFactory doc nodes =>
      refine reached.answers_onDocument built ?_ doc
      exact (reached.advances_compileNodes built nodes).bind fun _ site consistent =>
        ⟨consistent, [], .refl _ site.progress⟩
  | compile doc nodes =>
      have answers : compiler.Answers (compiler.compile doc nodes).1 :=
        reached.answers_onDocument built (reached.advances_compileNodes built nodes) doc
      refine ⟨answers.nodup, answers.unkept, answers.kept, answers.settled, ?_⟩
      intro factory success
      cases outcome : (compiler.compile doc nodes).1.outcome with
      | ok compiled => exact answers.complete compiled outcome
      | error error =>
          rw [perform, outcome] at success
          cases success

theorem Reached.supplied_perform {call : CompilerCall} {factory : Factory}
    (success : (compiler.perform call).outcome = .ok factory) :
    compiler.setup.Supplied factory := by
  cases call with
  | compileHtml source => exact reached.supplied_compileHtml built success
  | compileFactory doc nodes => exact reached.supplied_compileFactory built success
  | compile doc nodes =>
      rw [perform] at success
      cases outcome : (compiler.compile doc nodes).1.outcome with
      | error error =>
          rw [outcome] at success
          cases success
      | ok compiled =>
          rw [outcome] at success
          cases success
          exact reached.supplied_compile built outcome _

end calls

theorem Reached.perform (reached : compiler.Reached registry config) (call : CompilerCall) :
    (compiler.perform call).compiler.Reached registry config := by
  cases call with
  | compile doc nodes => exact .compile doc nodes reached
  | compileFactory doc nodes => exact .compileFactory doc nodes reached
  | compileHtml source => exact .compileHtml source reached

theorem Reached.setup_perform (reached : compiler.Reached registry config) (call : CompilerCall) :
    (compiler.perform call).compiler.setup = compiler.setup :=
  (reached.perform call).setup_eq.trans reached.setup_eq.symm

/-- Of the components that were started, those are kept whose markup can be compiled. -/
theorem Reached.settled_perform (built : registry.Built)
    (reached : compiler.Reached registry config) {call : CompilerCall} {component : Nat}
    (started : component ∈ (compiler.perform call).started) :
    ∃ markup, compiler.setup.InlineMarkup component markup ∧
      (component ∈ (compiler.perform call).kept ↔ compiler.setup.Compilable markup) := by
  have consistent := (reached.perform call).consistent built
  rw [reached.setup_perform] at consistent
  have compilable (kept : component ∈ (compiler.perform call).kept) :
      ∃ markup, compiler.setup.InlineMarkup component markup ∧
        compiler.setup.Compilable markup := by
    obtain ⟨⟨_, view⟩, listed, rfl⟩ := List.mem_map.mp kept
    obtain ⟨markup, inline, compilable, _⟩ := consistent.kept _ view listed
    exact ⟨markup, inline, compilable⟩
  rcases (reached.answers_perform built call).settled component started with kept | broken
  · obtain ⟨markup, inline, compiles⟩ := compilable kept
    exact ⟨markup, inline, fun _ => compiles, fun _ => kept⟩
  · obtain ⟨markup, inline, fails⟩ := broken
    refine ⟨markup, inline, fun kept => ?_, fun compiles => absurd compiles fails⟩
    obtain ⟨_, again, compiles⟩ := compilable kept
    cases inline.unique again
    exact compiles

end Compiler

/-- Some answers have a factory in which the component is bound, at any depth. -/
def Setup.BindsAmong (setup : Setup) (answers : List (Compilation Factory))
    (binding : Binding Factory) : Prop :=
  ∃ answer ∈ answers, ∃ factory, answer.outcome = .ok factory ∧ setup.BindsWithin factory binding

/-- The markup of components was compiled once: in no call twice, and after a call that kept a
component never again, so that all bindings of a component share one view. -/
structure Setup.CompiledOnce (setup : Setup) (answers : List (Compilation Factory)) : Prop where
  once : ∀ answer ∈ answers, answer.started.Nodup
  /-- The components that a call started are kept exactly if their markup can be compiled. -/
  settled : ∀ answer ∈ answers, ∀ component ∈ answer.started,
    ∃ markup, setup.InlineMarkup component markup ∧
      (component ∈ answer.kept ↔ setup.Compilable markup)
  complete : ∀ answer ∈ answers, ∀ factory, answer.outcome = .ok factory →
    answer.started ⊆ answer.kept
  never : answers.Pairwise fun earlier later =>
    ∀ component ∈ earlier.kept, component ∉ later.started
  shared : ∀ binding other, setup.BindsAmong answers binding → setup.BindsAmong answers other →
    binding.directive.index = other.directive.index → binding.view = other.view

namespace Compiler

variable {compiler : Compiler} {registry : Registry} {config : Config}

/-- Each answer is one to a call on a compiler for the same registry and configuration. -/
theorem Reached.exists_of_mem_performAll (reached : compiler.Reached registry config)
    {calls : List CompilerCall} {answer : Compilation Factory}
    (member : answer ∈ compiler.performAll calls) :
    ∃ (used : Compiler) (call : CompilerCall), used.Reached registry config ∧
      answer = used.perform call := by
  induction calls generalizing compiler with
  | nil => cases member
  | cons call rest induction =>
      rcases List.mem_cons.mp member with rfl | member
      · exact ⟨compiler, call, reached, rfl⟩
      · exact induction (reached.perform call) member

section calls
variable (built : registry.Built) (reached : compiler.Reached registry config)
include built reached

theorem Reached.not_mem_started {calls : List CompilerCall} {answer : Compilation Factory}
    (member : answer ∈ compiler.performAll calls) {component : Nat}
    (kept : component ∈ compiler.start.kept) : component ∉ answer.started := by
  induction calls generalizing compiler with
  | nil => cases member
  | cons call rest induction =>
      have answers := reached.answers_perform built call
      rcases List.mem_cons.mp member with rfl | member
      · exact fun started => answers.unkept component started kept
      · exact induction (reached.perform call) member (answers.kept kept)

theorem Reached.pairwise_performAll (calls : List CompilerCall) :
    (compiler.performAll calls).Pairwise fun earlier later =>
      ∀ component ∈ earlier.kept, component ∉ later.started := by
  induction calls generalizing compiler with
  | nil => exact .nil
  | cons call rest induction =>
      refine List.pairwise_cons.mpr ⟨fun answer member component kept => ?_,
        induction (reached.perform call)⟩
      exact (reached.perform call).not_mem_started built member kept

end calls

/-- Whatever a compiler was used for, and whatever it is asked for next, it compiles the markup of
each component once. -/
theorem compiledOnce_performAll {used : Compiler} (built : registry.Built)
    (reached : used.Reached registry config) (calls : List CompilerCall) :
    used.setup.CompiledOnce (used.performAll calls) where
  once answer member := by
    obtain ⟨other, call, again, rfl⟩ := reached.exists_of_mem_performAll member
    exact (again.answers_perform built call).nodup
  settled answer member component started := by
    obtain ⟨other, call, again, rfl⟩ := reached.exists_of_mem_performAll member
    have settled := again.settled_perform built started
    rw [again.setup_eq, ← reached.setup_eq] at settled
    exact settled
  complete answer member := by
    obtain ⟨other, call, again, rfl⟩ := reached.exists_of_mem_performAll member
    exact (again.answers_perform built call).complete
  never := reached.pairwise_performAll built calls
  shared := by
    have supplied {binding : Binding Factory}
        (bound : used.setup.BindsAmong (used.performAll calls) binding) :
        used.setup.Supplies binding := by
      obtain ⟨answer, member, factory, success, within⟩ := bound
      obtain ⟨other, call, again, rfl⟩ := reached.exists_of_mem_performAll member
      have supplied := again.supplied_perform built success
      rw [again.setup_eq, ← reached.setup_eq] at supplied
      exact supplied binding within
    intro binding other bound again same
    exact (supplied bound).view_eq (supplied again) same

/-! Two components, of which one uses the other, and a third one that needs itself. -/

def nestedCards : Registry :=
  ((Registry.empty.adding
    ⟨"Deck", "deck", .component (.inline "<card></card><card></card>")⟩).adding
    ⟨"Card", "card", .component (.inline "<b></b>")⟩).adding
    ⟨"Loop", "loop", .component (.inline "<card></card><loop></loop>")⟩

def nestedCalls : List CompilerCall :=
  [.compileHtml "<loop></loop>", .compileHtml "<deck></deck><deck></deck>",
    .compileHtml "<loop></loop>", .compile (Document.empty.create (.element "deck" [])) [0]]

theorem compiledOnce_nestedCalls :
    ((Compiler.new nestedCards).performAll nestedCalls).map (·.started) =
        [[2, 1], [0], [2], []] ∧
      ((Compiler.new nestedCards).performAll nestedCalls).map (·.outcome.isOk) =
        [false, true, false, true] ∧
      (Compiler.new nestedCards).setup.CompiledOnce
        ((Compiler.new nestedCards).performAll nestedCalls) := by
  have built : nestedCards.Built := ((Registry.Built.empty.adding _).adding _).adding _
  exact ⟨by decide +kernel, by decide +kernel,
    compiledOnce_performAll built (reached_new _) nestedCalls⟩

end Compiler

end ViewTemplates
