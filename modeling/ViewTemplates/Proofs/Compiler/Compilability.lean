import ViewTemplates.Proofs.Compiler.InPlace
import ViewTemplates.Proofs.Compiler.Levels

/-!
Which sources can be compiled, and with which error the others fail, whatever was compiled before.
-/

namespace ViewTemplates.Compiler

variable {compiler : Compiler} {registry : Registry} {config : Config}

theorem stack_viewOf (setup : Setup) {levels : Nat} (more : setup.registry.size < levels) :
    setup.Stack levels [] :=
  ⟨.nil, nofun, more⟩

theorem viewsSound_consistent (ascending : compiler.setup.Ascending) :
    compiler.setup.ViewsSound compiler.setup.Viewed (compiler.setup.Consistent [])
      compiler.viewOf where
  preserves _ _ _ claimed :=
    (Setup.meets_viewOf ascending (stack_viewOf _ (Nat.lt_succ_self _)) claimed
      fun _ _ => nofun).preserves
  sound kind directive source claimed progress view next consistent :=
    (viewsSound ascending).sound kind directive source claimed progress view next consistent.keeps
  report _ _ consistent := consistent.report _

/-- Between two compilations no component is being compiled, and nothing is wrong with the
components whose views were kept. -/
theorem Reached.consistent (built : registry.Built) (reached : Reached registry config compiler) :
    compiler.setup.Consistent [] compiler.start := by
  have views {compiler : Compiler} (earlier : Reached registry config compiler) :
      compiler.setup.ViewsSound (Setup.Viewed ⟨registry, config⟩)
        (Setup.Consistent ⟨registry, config⟩ []) compiler.viewOf := by
    rw [← earlier.setup_eq]
    exact viewsSound_consistent (earlier.ascending built)
  rw [reached.setup_eq]
  exact keeps_start views ⟨rfl, nofun⟩ reached

theorem outcome_compileHtml (source : String) :
    (compiler.compileHtml source).outcome =
      match compiler.setup.compileMarkup compiler.viewOf source compiler.start with
      | .ok factory _ => .ok factory
      | .error error _ => .error error := by
  rw [compileHtml]
  cases compiler.setup.compileMarkup compiler.viewOf source compiler.start <;> rfl

/-- A compilation ends with the first thing that is wrong with the source, if there is any. -/
theorem Reached.head_faults (built : registry.Built)
    (reached : Reached registry config compiler) (source : String) :
    match (compiler.compileHtml source).outcome with
    | .ok _ => compiler.setup.faults [] source = []
    | .error error => (compiler.setup.faults [] source).head? = some error := by
  have meets : Meets (compiler.setup.Consistent []) (compiler.setup.faults [] source)
      (compiler.setup.compileMarkup compiler.viewOf source) :=
    Setup.meets_compileMarkup_viewOf (stack_viewOf _ (Nat.lt_succ_self _)) (fun _ _ => nofun)
      (reached.ascending built)
  have consistent := reached.consistent built
  rw [outcome_compileHtml]
  cases run : compiler.setup.compileMarkup compiler.viewOf source compiler.start with
  | ok factory progress => exact (meets.ok consistent run).1
  | error error progress => exact (meets.error consistent run).1

theorem Reached.exists_ok_iff (built : registry.Built)
    (reached : Reached registry config compiler) (source : String) :
    (∃ factory, (compiler.compileHtml source).outcome = .ok factory) ↔
      compiler.setup.faults [] source = [] := by
  have ending := reached.head_faults built source
  cases outcome : (compiler.compileHtml source).outcome with
  | ok factory =>
      rw [outcome] at ending
      exact ⟨fun _ => ending, fun _ => ⟨factory, rfl⟩⟩
  | error error =>
      rw [outcome] at ending
      constructor
      · rintro ⟨_, impossible⟩
        cases impossible
      · intro clean
        rw [clean] at ending
        cases ending

/-- Compiling a source comes to an end at any depth of components: more levels than there are
directives change nothing. It succeeds exactly if all its texts can be read, none of their elements
is claimed twice, and no component that is used needs itself. Otherwise it fails with the first
thing that is wrong with the source, where claims are in the order of registration. -/
theorem compileHtml_outcome (built : registry.Built) (reached : Reached registry config compiler)
    (source : String) :
    (∀ levels, registry.size < levels →
      compiler.setup.compileMarkup (compiler.setup.viewOf levels) source compiler.start =
        compiler.setup.compileMarkup compiler.viewOf source compiler.start) ∧
      ((∃ factory, (compiler.compileHtml source).outcome = .ok factory) ↔
        compiler.setup.Compilable source) ∧
      (∀ error, (compiler.compileHtml source).outcome = .error error ↔
        (compiler.setup.faults [] source).head? = some error) ∧
      (∀ error, (compiler.compileHtml source).outcome = .error error →
        (∃ fault, error = .markup fault) ∨
          (∃ element first second, error = .conflictingDirectives element first second) ∨
          ∃ name, error = .recursiveComponent name) ∧
      ∀ kind, ((compiler.setup.claims kind).map (·.directive.index)).Pairwise (· < ·) := by
  have ascending := reached.ascending built
  have ending := reached.head_faults built source
  have known : compiler.setup.registry = registry := by rw [reached.setup_eq]
  refine ⟨?levels, ?success, ?failure, ?kinds, ?claims⟩
  case levels =>
    intro levels more
    refine Setup.agree_compileMarkup_viewOf ascending (stack_viewOf _ ?_)
      (stack_viewOf _ (Nat.lt_succ_self _)) (fun _ _ => nofun) _ (reached.consistent built)
    rw [known]
    exact more
  case success => exact (reached.exists_ok_iff built source).trans Setup.compilable_iff.symm
  case failure =>
    intro error
    cases outcome : (compiler.compileHtml source).outcome with
    | ok factory =>
        rw [outcome] at ending
        rw [ending]
        exact ⟨nofun, nofun⟩
    | error found =>
        rw [outcome] at ending
        rw [ending]
        exact ⟨fun equal => by cases equal; rfl, fun equal => by cases equal; rfl⟩
  case kinds =>
    intro error failure
    rw [failure] at ending
    exact Setup.cases_of_mem_faults (List.mem_of_head? ending)
  case claims =>
    intro kind
    exact Setup.ascending_claims (known ▸ built) kind

/-! Two components whose markup needs the other one. -/

def mutualCards : Registry :=
  (Registry.empty.adding ⟨"Card", "card", .component (.inline "<panel></panel>")⟩).adding
    ⟨"Panel", "panel", .component (.inline "<card></card>")⟩

theorem compileHtml_outcome_mutualCards :
    ¬(Compiler.new mutualCards).setup.Compilable "<card></card>" ∧
      ((Compiler.new mutualCards).setup.faults [] "<card></card>").head? =
        some (.recursiveComponent "Card") := by
  have built : mutualCards.Built := (Registry.Built.empty.adding _).adding _
  have failure : ((Compiler.new mutualCards).compileHtml "<card></card>").outcome =
      .error (.recursiveComponent "Card") := by decide +kernel
  obtain ⟨_, success, failed, _⟩ :=
    compileHtml_outcome built (reached_new _) "<card></card>"
  refine ⟨fun compilable => ?_, (failed _).mp failure⟩
  obtain ⟨factory, found⟩ := success.mpr compilable
  rw [failure] at found
  cases found

end ViewTemplates.Compiler
