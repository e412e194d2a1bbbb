import ViewTemplates.Compiler.Basic
import ViewTemplates.Proofs.Compiler.Marking

/-!
The way to component views. A view is given, found among those that were kept, or compiled from the
component's markup one level down; whatever a compilation keeps along this way holds of its views.
-/

namespace ViewTemplates.Setup

variable {setup : Setup} {viewed : ComponentSource → Factory → Prop} {keeps : Progress → Prop}
  {viewOf : DirectiveRef → ComponentSource → Work Factory}

theorem preserves_compileForest (views : setup.ViewsSound viewed keeps viewOf)
    (forest : Forest NodeKind) : Preserves keeps (setup.compileForest viewOf forest) := by
  intro progress kept
  have preserves := preserves_mark views (forest.map fun kind => ((), kind)) ⟨progress, []⟩ kept
  rw [compileForest]
  cases run : setup.mark viewOf (forest.map fun kind => ((), kind)) ⟨progress, []⟩ with
  | ok marks stage =>
      rw [run] at preserves
      exact views.report _ _ preserves
  | error error stage =>
      rw [run] at preserves
      exact preserves

theorem preserves_report (views : setup.ViewsSound viewed keeps viewOf) (events : List Event) :
    Preserves keeps (Work.report events) :=
  fun progress kept => views.report progress _ kept

theorem preserves_compileMarkup (views : setup.ViewsSound viewed keeps viewOf)
    (markup : String) : Preserves keeps (setup.compileMarkup viewOf markup) := by
  unfold compileMarkup
  split
  · exact .throw _
  · exact (preserves_report views _).bind fun _ => preserves_compileForest views _

theorem compileForest_eq_ok {forest : Forest NodeKind} {progress next : Progress}
    {factory : Factory} (run : setup.compileForest viewOf forest progress = .ok factory next) :
    ∃ marks stage,
      setup.mark viewOf (forest.map fun kind => ((), kind)) ⟨progress, []⟩ = .ok marks stage ∧
        factory = .ofMarks [] marks := by
  rw [compileForest] at run
  split at run
  · cases run
  next marks stage marked =>
    cases run
    exact ⟨marks, stage, marked, rfl⟩

theorem compileMarkup_eq_ok {markup : String} {progress next : Progress} {factory : Factory}
    (run : setup.compileMarkup viewOf markup progress = .ok factory next) :
    ∃ forest events middle, Markup.parse markup = .ok (forest, events) ∧
      Work.report events progress = .ok () middle ∧
        setup.compileForest viewOf forest middle = .ok factory next := by
  rw [compileMarkup] at run
  cases parsed : Markup.parse markup with
  | error error =>
      rw [parsed] at run
      cases run
  | ok value =>
      rw [parsed] at run
      obtain ⟨_, middle, reported, compiled⟩ := bind_eq_ok run
      exact ⟨value.1, value.2, middle, rfl, reported, compiled⟩

theorem ok_of_building {work : Work α} {index : Nat} {progress next : Progress} {value : α}
    (run : building index work progress = .ok value next) :
    ∃ last, work { progress with building := index :: progress.building } = .ok value last := by
  rw [building] at run
  split at run
  next found last worked =>
    cases run
    exact ⟨last, worked⟩
  next => cases run

def viewOfMarkup (setup : Setup) (levels : Nat) (directive : DirectiveRef) (markup : String) :
    Work Factory := do
  Work.report [.compilingComponent directive]
  let factory ← building directive.index (setup.compileMarkup (setup.viewOf levels) markup)
  modify fun progress => { progress with views := (directive.index, factory) :: progress.views }
  pure factory

section
variable {directive : DirectiveRef} {markup : String} {progress : Progress}

theorem viewOf_of_lookup (levels : Nat) {view : Factory}
    (looked : progress.views.lookup directive.index = some view) :
    setup.viewOf levels directive (.inline markup) progress = .ok view progress := by
  cases levels <;> rw [viewOf, get_bind, looked] <;> rfl

theorem viewOf_of_building (levels : Nat)
    (looked : progress.views.lookup directive.index = none)
    (repeated : progress.building.contains directive.index = true) :
    setup.viewOf levels directive (.inline markup) progress =
      .error (.recursiveComponent directive.name) progress := by
  cases levels <;> rw [viewOf, get_bind, looked] <;> simp only [repeated] <;> rfl

theorem viewOf_succ (levels : Nat) (looked : progress.views.lookup directive.index = none)
    (fresh : progress.building.contains directive.index = false) :
    setup.viewOf (levels + 1) directive (.inline markup) progress =
      setup.viewOfMarkup levels directive markup progress := by
  rw [viewOf, get_bind, looked]
  simp only [fresh]
  rfl

/-- A view is found among those that were kept, or its markup is compiled one level down. -/
theorem viewOf_inline {levels : Nat} :
    (∃ view, progress.views.lookup directive.index = some view ∧
        setup.viewOf levels directive (.inline markup) progress = .ok view progress) ∨
      (∃ error, setup.viewOf levels directive (.inline markup) progress =
        .error error progress) ∨
      ∃ fewer, levels = fewer + 1 ∧ setup.viewOf levels directive (.inline markup) progress =
        setup.viewOfMarkup fewer directive markup progress := by
  cases looked : progress.views.lookup directive.index with
  | some view => exact .inl ⟨view, rfl, viewOf_of_lookup levels looked⟩
  | none =>
      refine .inr ?_
      cases repeated : progress.building.contains directive.index with
      | true => exact .inl ⟨_, viewOf_of_building levels looked repeated⟩
      | false =>
          cases levels with
          | zero =>
              refine .inl ⟨.recursiveComponent directive.name, ?_⟩
              rw [viewOf, get_bind, looked]
              simp only [repeated]
              rfl
          | succ fewer => exact .inr ⟨fewer, rfl, viewOf_succ fewer looked repeated⟩

end

/-- What a compilation keeps says all that is needed of the views: it does not depend on events or
on the components that are being compiled, and views that are kept, given or compiled are as
wanted. -/
structure Remembers (setup : Setup) (viewed : ComponentSource → Factory → Prop)
    (keeps : Progress → Prop) : Prop where
  report : ∀ progress events, keeps progress → keeps { progress with events }
  building : ∀ progress building, keeps progress → keeps { progress with building }
  given : ∀ kind directive factory,
    setup.claims kind = [.component directive (.compiled factory)] →
    viewed (.compiled factory) factory
  found : ∀ kind directive markup progress view,
    setup.claims kind = [.component directive (.inline markup)] → keeps progress →
    progress.views.lookup directive.index = some view → viewed (.inline markup) view
  cons : ∀ kind directive markup progress view,
    setup.claims kind = [.component directive (.inline markup)] → keeps progress →
    viewed (.inline markup) view →
    keeps { progress with views := (directive.index, view) :: progress.views }
  compile : ∀ viewOf, setup.ViewsSound viewed keeps viewOf →
    ∀ markup progress next factory, keeps progress →
    setup.compileMarkup viewOf markup progress = .ok factory next →
    viewed (.inline markup) factory

section remembers
variable (remembers : setup.Remembers viewed keeps)
include remembers

theorem preserves_building {work : Work α} (preserves : Preserves keeps work) (index : Nat) :
    Preserves keeps (building index work) := by
  intro progress kept
  have result := preserves { progress with building := index :: progress.building }
    (remembers.building _ _ kept)
  rw [building]
  cases run : work { progress with building := index :: progress.building } with
  | ok value next =>
      rw [run] at result
      exact remembers.building _ _ result
  | error error next =>
      rw [run] at result
      exact remembers.building _ _ result

section markup
variable {levels : Nat} (views : setup.ViewsSound viewed keeps (setup.viewOf levels))
  {directive : DirectiveRef} {markup : String}
include views

theorem viewed_of_viewOfMarkup {progress next : Progress} {view : Factory} (kept : keeps progress)
    (run : setup.viewOfMarkup levels directive markup progress = .ok view next) :
    viewed (.inline markup) view := by
  obtain ⟨_, first, reported, building⟩ := bind_eq_ok run
  obtain ⟨factory, second, built, keeping⟩ := bind_eq_ok building
  cases keeping
  obtain ⟨last, compiled⟩ := ok_of_building built
  have begun : keeps first := (preserves_report views _).ok kept reported
  exact remembers.compile _ views _ _ _ _ (remembers.building _ _ begun) compiled

theorem preserves_viewOfMarkup {kind : NodeKind}
    (claimed : setup.claims kind = [.component directive (.inline markup)]) :
    Preserves keeps (setup.viewOfMarkup levels directive markup) := by
  intro progress kept
  have builds : Preserves keeps
      (building directive.index (setup.compileMarkup (setup.viewOf levels) markup)) :=
    preserves_building remembers (preserves_compileMarkup views markup) directive.index
  cases run : setup.viewOfMarkup levels directive markup progress with
  | ok view next =>
      have viewed := viewed_of_viewOfMarkup remembers views kept run
      obtain ⟨_, first, reported, building⟩ := bind_eq_ok run
      obtain ⟨factory, second, built, keeping⟩ := bind_eq_ok building
      cases keeping
      have begun : keeps first := (preserves_report views _).ok kept reported
      exact remembers.cons _ _ _ _ _ claimed (builds.ok begun built) viewed
  | error error next =>
      rcases bind_eq_error run with failed | ⟨_, first, reported, failed⟩
      · exact (preserves_report views _).error kept failed
      have begun : keeps first := (preserves_report views _).ok kept reported
      rcases bind_eq_error failed with failed | ⟨_, _, _, failed⟩
      · exact builds.error begun failed
      · cases failed

end markup

theorem viewsSound_of_fewer {levels : Nat}
    (lower : ∀ fewer, levels = fewer + 1 →
      setup.ViewsSound viewed keeps (setup.viewOf fewer)) :
    setup.ViewsSound viewed keeps (setup.viewOf levels) where
  report := remembers.report
  preserves := by
    intro kind directive source claimed
    cases source with
    | compiled factory =>
        rw [viewOf]
        exact .pure factory
    | inline markup =>
        intro progress kept
        rcases setup.viewOf_inline with ⟨view, _, run⟩ | ⟨error, run⟩ | ⟨fewer, equal, run⟩
        · rw [run]
          exact kept
        · rw [run]
          exact kept
        · rw [run]
          exact preserves_viewOfMarkup remembers (lower fewer equal) claimed progress kept
  sound := by
    intro kind directive source claimed progress view next kept found
    cases source with
    | compiled factory =>
        rw [viewOf] at found
        cases found
        exact remembers.given kind directive _ claimed
    | inline markup =>
        rcases setup.viewOf_inline with ⟨view, looked, run⟩ | ⟨error, run⟩ | ⟨fewer, equal, run⟩
        · rw [run] at found
          cases found
          exact remembers.found kind directive markup _ view claimed kept looked
        · rw [run] at found
          cases found
        · rw [run] at found
          exact viewed_of_viewOfMarkup remembers (lower fewer equal) kept found

/-- The way to component views is sound at every level. -/
theorem Remembers.viewsSound (levels : Nat) :
    setup.ViewsSound viewed keeps (setup.viewOf levels) := by
  induction levels with
  | zero => exact viewsSound_of_fewer remembers nofun
  | succ levels induction =>
      refine viewsSound_of_fewer remembers fun fewer equal => ?_
      cases equal
      exact induction

end remembers

end ViewTemplates.Setup
