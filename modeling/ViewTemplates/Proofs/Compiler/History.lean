import ViewTemplates.Proofs.Compiler.Compilability
import ViewTemplates.Proofs.Compiler.Uniqueness

/-!
Compilers do not remember anything that matters. The views that a compiler keeps are those that a
fresh one would make, so whatever was compiled before, a source is compiled to the same factory, or
fails with the same error.
-/

namespace ViewTemplates.Compiler

/-- Compile one source after another, failures included: the outcomes, and the compiler after all
of them. -/
def compileAll (compiler : Compiler) : List String → List (Except Error Factory) × Compiler
  | [] => ([], compiler)
  | source :: rest =>
      let compilation := compiler.compileHtml source
      let (outcomes, last) := compilation.compiler.compileAll rest
      (compilation.outcome :: outcomes, last)

variable {compiler fresh : Compiler} {registry : Registry} {config : Config}

theorem Reached.viewed (built : registry.Built) (reached : Reached registry config compiler)
    {source : String} {factory : Factory}
    (success : (compiler.compileHtml source).outcome = .ok factory) :
    Setup.Viewed ⟨registry, config⟩ (.inline source) factory := by
  rw [← reached.setup_eq]
  exact compiles_of_compileHtml built reached success

theorem Reached.clean_iff (built : registry.Built)
    (reached : Reached registry config compiler) (source : String) :
    (∃ factory, (compiler.compileHtml source).outcome = .ok factory) ↔
      Setup.faults ⟨registry, config⟩ [] source = [] := by
  rw [reached.exists_ok_iff built, reached.setup_eq]

/-- Two compilers for one registry and configuration agree on every source. -/
theorem Reached.outcome_eq (built : registry.Built) {used other : Compiler}
    (reached : Reached registry config used) (again : Reached registry config other)
    (source : String) :
    (used.compileHtml source).outcome = (other.compileHtml source).outcome := by
  have ending := reached.head_faults built source
  have otherEnding := again.head_faults built source
  rw [reached.setup_eq] at ending
  rw [again.setup_eq] at otherEnding
  cases outcome : (used.compileHtml source).outcome with
  | ok factory =>
      have clean := (reached.clean_iff built source).mp ⟨factory, outcome⟩
      obtain ⟨found, success⟩ := (again.clean_iff built source).mpr clean
      rw [success, (reached.viewed built outcome).unique (again.viewed built success)]
  | error error =>
      rw [outcome] at ending
      cases otherOutcome : (other.compileHtml source).outcome with
      | ok factory =>
          rw [otherOutcome] at otherEnding
          rw [otherEnding] at ending
          cases ending
      | error found =>
          rw [otherOutcome] at otherEnding
          have same : some error = some found := ending.symm.trans otherEnding
          cases same
          rfl

theorem Reached.compileAll (reached : Reached registry config compiler) (sources : List String) :
    Reached registry config (compiler.compileAll sources).2 := by
  induction sources generalizing compiler with
  | nil => exact reached
  | cons source rest induction => exact induction (.compileHtml source reached)

theorem Reached.outcomes_eq (built : registry.Built) (reached : Reached registry config compiler)
    (start : Reached registry config fresh) (sources : List String) :
    (compiler.compileAll sources).1 =
      sources.map fun source => (fresh.compileHtml source).outcome := by
  induction sources generalizing compiler with
  | nil => rfl
  | cons source rest induction =>
      exact congrArg₂ List.cons (reached.outcome_eq built start source)
        (induction (.compileHtml source reached))

theorem Reached.kept_eq (built : registry.Built) (reached : Reached registry config compiler)
    (start : Reached registry config fresh) {component : Nat} {view : Factory}
    (member : (component, view) ∈ compiler.views) :
    ∃ markup, Setup.InlineMarkup ⟨registry, config⟩ component markup ∧
      (fresh.compileHtml markup).outcome = .ok view := by
  have consistent := reached.consistent built
  rw [reached.setup_eq] at consistent
  obtain ⟨markup, inline, compilable, viewed⟩ := consistent.kept component view member
  obtain ⟨factory, success⟩ :=
    (start.clean_iff built markup).mpr (Setup.compilable_iff.mp compilable)
  refine ⟨markup, inline, ?_⟩
  rw [success, viewed.unique (start.viewed built success)]

/-- Whatever a compiler was used for, it compiles any sources, one after another, as a fresh one
compiles each of them. Afterwards no component is being compiled, and every view that it keeps is
what a fresh compiler makes of the component's markup. -/
theorem compileAll_outcomes {used : Compiler} (built : registry.Built)
    (made : Compiler.withConfig registry config = .ok fresh)
    (reached : Reached registry config used) (sources : List String) :
    (used.compileAll sources).1 =
        (sources.map fun source => (fresh.compileHtml source).outcome) ∧
      (used.compileAll sources).2.building = [] ∧
      ∀ component view, (component, view) ∈ (used.compileAll sources).2.views →
        ∃ markup, fresh.setup.InlineMarkup component markup ∧
          (fresh.compileHtml markup).outcome = .ok view := by
  have start : Reached registry config fresh := .start made
  have after := reached.compileAll sources
  refine ⟨reached.outcomes_eq built start sources, (after.consistent built).building, ?_⟩
  intro component view member
  rw [start.setup_eq]
  exact after.kept_eq built start member

/-! A component that can be compiled, and one that needs itself. -/

def cards : Registry :=
  (Registry.empty.adding ⟨"Card", "card", .component (.inline "<b></b>")⟩).adding
    ⟨"Loop", "loop", .component (.inline "<loop></loop>")⟩

theorem compileAll_outcomes_cards :
    ((Compiler.new cards).compileAll ["<card></card>", "<loop></loop>", "<card></card>"]).1 =
        ["<card></card>", "<loop></loop>", "<card></card>"].map (fun source =>
          ((Compiler.new cards).compileHtml source).outcome) ∧
      ∃ view markup,
        (0, view) ∈ ((Compiler.new cards).compileAll
          ["<card></card>", "<loop></loop>", "<card></card>"]).2.views ∧
        ((Compiler.new cards).compileHtml markup).outcome = .ok view := by
  have built : cards.Built := (Registry.Built.empty.adding _).adding _
  have made := withConfig_default cards
  obtain ⟨outcomes, _, kept⟩ := compileAll_outcomes built made (reached_new cards)
    ["<card></card>", "<loop></loop>", "<card></card>"]
  have keys : ((Compiler.new cards).compileAll
      ["<card></card>", "<loop></loop>", "<card></card>"]).2.views.map Prod.fst = [0] := by
    decide +kernel
  have member : 0 ∈ ((Compiler.new cards).compileAll
      ["<card></card>", "<loop></loop>", "<card></card>"]).2.views.map Prod.fst := by
    rw [keys]
    exact List.mem_singleton_self 0
  obtain ⟨⟨component, view⟩, listed, equal⟩ := List.mem_map.mp member
  cases equal
  obtain ⟨markup, _, success⟩ := kept 0 view listed
  exact ⟨outcomes, view, markup, listed, success⟩

end ViewTemplates.Compiler
