import Mathlib.Data.List.Perm.Subperm
import ViewTemplates.Proofs.Compiler.Faults

/-!
How a compilation ends. It succeeds exactly if nothing is wrong with its source, and otherwise fails
with the first thing that is, whatever was compiled before: a view that was kept is one of a
component with which nothing is wrong.
-/

namespace ViewTemplates.Setup

variable {setup : Setup} {within : List Nat}

section walk
variable {keeps : Progress → Prop} {viewOf : DirectiveRef → ComponentSource → Work Factory}

/-- The views of the components at some nodes can be had, unless something is wrong with them. -/
def ViewsMeet (setup : Setup) (keeps : Progress → Prop) (within : List Nat)
    (viewOf : DirectiveRef → ComponentSource → Work Factory) (kinds : List NodeKind) : Prop :=
  ∀ kind ∈ kinds, ∀ directive source, setup.claims kind = [.component directive source] →
    Meets keeps (setup.faultsAt within kind) (viewOf directive source)

theorem meets_lift {faults : List Error} {work : Work α} (meets : Meets keeps faults work) :
    Meets (fun stage : Stage ι => keeps stage.progress) faults (Marking.lift work) := by
  intro stage kept
  have result := meets stage.progress kept
  rw [Marking.lift]
  cases run : work stage.progress with
  | ok value next =>
      rw [run] at result
      exact result
  | error error next =>
      rw [run] at result
      exact result

theorem meets_edit (keeps : Progress → Prop) (change : Edit ι) :
    Meets (fun stage : Stage ι => keeps stage.progress) [] (Marking.edit change) :=
  fun _ kept => ⟨rfl, kept⟩

variable (report : ∀ progress events, keeps progress → keeps { progress with events })
include report

theorem meets_report (events : List Event) : Meets keeps [] (Work.report events) :=
  fun progress kept => ⟨rfl, report progress _ kept⟩

theorem meets_markAnchor (node : ι) (kind : NodeKind) (directive : DirectiveRef)
    (content : Forest (Mark Factory)) :
    Meets (fun stage : Stage ι => keeps stage.progress) []
      (setup.markAnchor node kind directive content) := by
  refine (meets_lift (meets_report report _)).bind fun _ => ?_
  split
  · exact (meets_edit keeps _).bind fun _ => .pure _
  · exact (meets_edit keeps _).bind fun _ => .pure _

theorem meets_markTree (node : ι) {kind : NodeKind} {below : Forest (ι × NodeKind)}
    {faults : List Error} (bottom : kind.isElement = false → faults = [])
    (views : ∀ directive source, setup.claims kind = [.component directive source] →
      Meets keeps (setup.faultsAt within kind) (viewOf directive source))
    (inner : Meets (fun stage : Stage ι => keeps stage.progress) faults
      (setup.mark viewOf below)) :
    Meets (fun stage : Stage ι => keeps stage.progress) (setup.faultsAt within kind ++ faults)
      (setup.markTree viewOf node kind below) := by
  unfold markTree
  cases isElement : kind.isElement with
  | false =>
      rw [faultsAt_of_unclaimed (setup.claims_of_not_isElement isElement), bottom isElement]
      exact .pure _
  | true =>
      rcases claimed : setup.claims kind with _ | ⟨claim, _ | ⟨second, more⟩⟩
      · rw [faultsAt_of_unclaimed claimed, ← List.append_nil faults]
        exact inner.bind fun _ => .pure _
      · cases claim with
        | component directive source =>
            rw [← List.append_nil faults]
            exact (meets_lift (views directive source claimed)).bind fun _ =>
              inner.bind fun _ => .pure _
        | template directive =>
            rw [faultsAt_of_template claimed, ← List.append_nil faults]
            exact (meets_edit keeps _).bind fun _ =>
              inner.bind fun content => meets_markAnchor report node kind directive content
      · rw [faultsAt_of_conflict claimed]
        cases claim <;> exact .throw rfl

theorem meets_mark {forest : Forest (ι × NodeKind)}
    (bare : (forest.map Prod.snd).Bare NodeKind.isElement)
    (views : setup.ViewsMeet keeps within viewOf (forest.map Prod.snd).preorder) :
    Meets (fun stage : Stage ι => keeps stage.progress)
      ((forest.map Prod.snd).preorder.flatMap (setup.faultsAt within))
      (setup.mark viewOf forest) := by
  induction forest with
  | nil => exact .pure _
  | cons entry below rest inner outer =>
      obtain ⟨node, kind⟩ := entry
      obtain ⟨bottom, bareBelow, bareRest⟩ := bare
      obtain ⟨viewsHere, viewsBelow, viewsRest⟩ := Forest.forall_mem_preorder_cons.mp views
      rw [mark_cons, Forest.map, Forest.preorder, List.flatMap_cons, List.flatMap_append,
        ← List.append_assoc, ← List.append_nil ((rest.map Prod.snd).preorder.flatMap _)]
      refine (meets_markTree report node ?_ viewsHere (inner bareBelow viewsBelow)).bind fun _ =>
        (outer bareRest viewsRest).bind fun _ => .pure _
      intro leaf
      rw [bottom leaf]
      rfl

theorem meets_compileForest {forest : Forest NodeKind} (bare : forest.Bare NodeKind.isElement)
    (views : setup.ViewsMeet keeps within viewOf forest.preorder) :
    Meets keeps (forest.preorder.flatMap (setup.faultsAt within))
      (setup.compileForest viewOf forest) := by
  intro progress kept
  have same := forest.map_snd_map_pair ()
  have result := meets_mark report (same.symm ▸ bare) (same.symm ▸ views) ⟨progress, []⟩ kept
  rw [same] at result
  rw [compileForest]
  cases run : setup.mark viewOf (forest.map fun kind => ((), kind)) ⟨progress, []⟩ with
  | ok marks stage =>
      rw [run] at result
      exact ⟨result.1, report _ _ result.2⟩
  | error error stage =>
      rw [run] at result
      exact result

theorem meets_compileMarkup {markup : String}
    (views : ∀ forest events, Markup.parse markup = .ok (forest, events) →
      setup.ViewsMeet keeps within viewOf forest.preorder) :
    Meets keeps (setup.faults within markup) (setup.compileMarkup viewOf markup) := by
  rw [faults, compileMarkup]
  cases parsed : Markup.parse markup with
  | error error => exact .throw rfl
  | ok value =>
      obtain ⟨forest, events⟩ := value
      exact (meets_report report events).bind fun _ =>
        meets_compileForest report (Markup.bare_of_parse parsed) (views forest events parsed)

end walk

/-! Components inside each other. -/

/-- The components that are being compiled: each of them once, and together with the levels that
are left there are more of them than directives. -/
structure Stack (setup : Setup) (levels : Nat) (within : List Nat) : Prop where
  nodup : within.Nodup
  registered : ∀ component ∈ within, component < setup.registry.size
  enough : setup.registry.size < levels + within.length

theorem Stack.exists_eq_add_one {levels : Nat} (stack : setup.Stack levels within) :
    ∃ fewer, levels = fewer + 1 := by
  have bound : within.length ≤ setup.registry.size := by
    rw [← List.length_range (n := setup.registry.size)]
    refine (stack.nodup.subperm fun component member => ?_).length_le
    exact List.mem_range.mpr (stack.registered component member)
  have enough := stack.enough
  exact ⟨levels - 1, by omega⟩

theorem Stack.cons {levels component : Nat} (stack : setup.Stack (levels + 1) within)
    (fresh : component ∉ within) (registered : component < setup.registry.size) :
    setup.Stack levels (component :: within) where
  nodup := List.nodup_cons.mpr ⟨fresh, stack.nodup⟩
  registered := by
    intro other member
    rcases List.mem_cons.mp member with rfl | member
    · exact registered
    · exact stack.registered other member
  enough := by
    have enough := stack.enough
    rw [List.length_cons]
    omega

/-- These components are being compiled, and the views that were kept are those of components with
which nothing is wrong. -/
structure Consistent (setup : Setup) (within : List Nat) (progress : Progress) : Prop where
  building : progress.building = within
  kept : ∀ component view, (component, view) ∈ progress.views →
    ∃ markup, setup.InlineMarkup component markup ∧ setup.Compilable markup ∧
      setup.Viewed (.inline markup) view

theorem Consistent.of_lookup {progress : Progress}
    (consistent : setup.Consistent within progress) {component : Nat} {markup : String}
    {view : Factory} (inline : setup.InlineMarkup component markup)
    (looked : progress.views.lookup component = some view) :
    setup.Compilable markup ∧ setup.Viewed (.inline markup) view := by
  obtain ⟨before, after, listed, _⟩ := List.lookup_eq_some_iff.mp looked
  have member : (component, view) ∈ progress.views :=
    listed ▸ List.mem_append_right _ List.mem_cons_self
  obtain ⟨same, again, compilable, viewed⟩ := consistent.kept component view member
  cases inline.unique again
  exact ⟨compilable, viewed⟩

theorem Consistent.contains_iff {progress : Progress}
    (consistent : setup.Consistent within progress) {component : Nat} :
    progress.building.contains component = true ↔ component ∈ within := by
  rw [consistent.building]
  exact List.contains_iff_mem

theorem Consistent.not_mem {progress : Progress} (consistent : setup.Consistent within progress)
    {component : Nat} (absent : progress.building.contains component = false) :
    component ∉ within :=
  fun member => Bool.eq_false_iff.mp absent (consistent.contains_iff.mpr member)

theorem Consistent.keeps {progress : Progress} (consistent : setup.Consistent within progress) :
    setup.Keeps progress := by
  intro kind directive markup view claimed looked
  have inline := inlineMarkup_of_claims claimed
  exact (consistent.of_lookup inline looked).2

theorem Consistent.report {progress : Progress} (consistent : setup.Consistent within progress)
    (events : List Event) : setup.Consistent within { progress with events } :=
  ⟨consistent.building, consistent.kept⟩

theorem Consistent.cons {progress : Progress} (consistent : setup.Consistent within progress)
    {component : Nat} {markup : String} {view : Factory}
    (inline : setup.InlineMarkup component markup) (compilable : setup.Compilable markup)
    (viewed : setup.Viewed (.inline markup) view) :
    setup.Consistent within { progress with views := (component, view) :: progress.views } where
  building := consistent.building
  kept := by
    intro other found member
    rcases List.mem_cons.mp member with equal | member
    · cases equal
      exact ⟨markup, inline, compilable, viewed⟩
    · exact consistent.kept other found member

theorem meets_building {faults : List Error} {component : Nat} {work : Work α}
    (meets : Meets (setup.Consistent (component :: within)) faults work) :
    Meets (setup.Consistent within) faults (building component work) := by
  intro progress consistent
  have result := meets { progress with building := component :: progress.building }
    ⟨congrArg _ consistent.building, consistent.kept⟩
  have popped (next : Progress) (inner : setup.Consistent (component :: within) next) :
      setup.Consistent within { next with building := next.building.tail } :=
    ⟨congrArg List.tail inner.building, inner.kept⟩
  rw [building]
  cases run : work { progress with building := component :: progress.building } with
  | ok value next =>
      rw [run] at result
      exact ⟨result.1, popped next result.2⟩
  | error error next =>
      rw [run] at result
      exact ⟨result.1, popped next result.2⟩

theorem meets_viewOfMarkup (ascending : setup.Ascending) {levels : Nat}
    {directive : DirectiveRef} {markup : String}
    (inline : setup.InlineMarkup directive.index markup)
    (meets : Meets (setup.Consistent (directive.index :: within))
      (setup.faults (directive.index :: within) markup)
      (setup.compileMarkup (setup.viewOf levels) markup)) :
    Meets (setup.Consistent within) (setup.faults (directive.index :: within) markup)
      (setup.viewOfMarkup levels directive markup) := by
  have reports (events : List Event) : Meets (setup.Consistent within) [] (Work.report events) :=
    meets_report (fun _ _ consistent => consistent.report _) events
  intro progress consistent
  cases run : setup.viewOfMarkup levels directive markup progress with
  | ok view next =>
      have viewed := viewed_of_viewOfMarkup (remembers_keeps ascending)
        (viewsSound_viewOf ascending levels) consistent.keeps run
      obtain ⟨_, first, reported, building⟩ := bind_eq_ok run
      obtain ⟨factory, second, built, keeping⟩ := bind_eq_ok building
      cases keeping
      obtain ⟨clean, still⟩ :=
        (meets_building meets).ok ((reports _).ok consistent reported).2 built
      exact ⟨clean, still.cons inline (compilable_of_clean clean) viewed⟩
  | error error next =>
      rcases bind_eq_error run with failed | ⟨_, first, reported, failed⟩
      · cases failed
      rcases bind_eq_error failed with failed | ⟨_, _, _, failed⟩
      · exact (meets_building meets).error ((reports _).ok consistent reported).2 failed
      · cases failed

/-- The view of a component can be had unless something is wrong with the component. -/
theorem meets_viewOf (ascending : setup.Ascending) {levels : Nat}
    (stack : setup.Stack levels within) {kind : NodeKind} {directive : DirectiveRef}
    {source : ComponentSource} (claimed : setup.claims kind = [.component directive source])
    (lead : ∀ markup, source = .inline markup → setup.LeadTo within directive.index) :
    Meets (setup.Consistent within) (setup.faultsAt within kind)
      (setup.viewOf levels directive source) := by
  induction levels generalizing within kind directive source with
  | zero =>
      obtain ⟨_, impossible⟩ := stack.exists_eq_add_one
      cases impossible
  | succ levels induction =>
      cases source with
      | compiled factory =>
          rw [faultsAt_of_compiled claimed, viewOf]
          exact .pure factory
      | inline inner =>
          have inline := inlineMarkup_of_claims claimed
          have lead := lead inner rfl
          rw [faultsAt_of_claims claimed]
          intro progress consistent
          cases looked : progress.views.lookup directive.index with
          | some view =>
              -- A component whose view was kept does not need itself, so it is not being compiled.
              obtain ⟨compilable, _⟩ := consistent.of_lookup inline looked
              have fresh : directive.index ∉ within := fun repeated =>
                compilable.not_transGen inline (lead _ repeated)
              rw [viewOf_of_lookup _ looked, if_neg fresh]
              exact ⟨compilable.faults_eq_nil .source fun _ => lead.cons inline, consistent⟩
          | none =>
              cases repeated : progress.building.contains directive.index with
              | true =>
                  rw [viewOf_of_building _ looked repeated,
                    if_pos (consistent.contains_iff.mp repeated)]
                  exact ⟨rfl, consistent⟩
              | false =>
                  have fresh := consistent.not_mem repeated
                  rw [viewOf_succ _ looked repeated, if_neg fresh]
                  refine meets_viewOfMarkup ascending inline ?_ progress consistent
                  refine meets_compileMarkup (fun _ _ still => still.report _) ?_
                  intro forest events parsed kind member other source claimed
                  refine induction (stack.cons fresh inline.registered) claimed ?_
                  rintro markup rfl
                  exact lead.cons inline (uses_of_claims parsed member claimed)

section text
variable {levels : Nat} (stack : setup.Stack levels within) {markup : String}
  (lead : ∀ component, setup.Uses markup component → setup.LeadTo within component)
include stack lead

theorem viewsMeet_viewOf (ascending : setup.Ascending) {forest : Forest NodeKind}
    {events : List Event} (parsed : Markup.parse markup = .ok (forest, events)) :
    setup.ViewsMeet (setup.Consistent within) within (setup.viewOf levels) forest.preorder := by
  intro kind member directive source claimed
  refine meets_viewOf ascending stack claimed ?_
  rintro inner rfl
  exact lead _ (uses_of_claims parsed member claimed)

/-- A text is compiled unless something is wrong with it, inside any components that need what it
uses. -/
theorem meets_compileMarkup_viewOf (ascending : setup.Ascending) :
    Meets (setup.Consistent within) (setup.faults within markup)
      (setup.compileMarkup (setup.viewOf levels) markup) :=
  meets_compileMarkup (fun _ _ still => still.report _) fun _ _ parsed =>
    viewsMeet_viewOf stack lead ascending parsed

end text

end ViewTemplates.Setup
