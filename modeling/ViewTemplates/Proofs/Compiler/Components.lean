import ViewTemplates.Compiler.Extraction
import ViewTemplates.Proofs.Compiler.Factories
import ViewTemplates.Proofs.Compiler.Views
import ViewTemplates.Proofs.Directive.Order
import ViewTemplates.Proofs.Markup.Nesting

/-!
Component views across compilations. A compiler only keeps views that were compiled from the markup
of the component they are kept for, so a view found there is as good as one compiled again.
-/

namespace ViewTemplates

namespace Setup

variable {setup : Setup}

theorem map_filterMap_sublist {part : α → Option β} {read : β → γ} {number : α → γ}
    (same : ∀ entry found, part entry = some found → read found = number entry)
    (entries : List α) : ((entries.filterMap part).map read).Sublist (entries.map number) := by
  induction entries with
  | nil => exact .slnil
  | cons entry rest induction =>
      cases found : part entry with
      | none =>
          rw [List.filterMap_cons_none found, List.map_cons]
          exact induction.cons _
      | some value =>
          rw [List.filterMap_cons_some found, List.map_cons, List.map_cons,
            same entry value found]
          exact induction.cons_cons _

theorem ascending_of_built (built : setup.registry.Built) : setup.Ascending := by
  intro kind
  refine (built.ascending_matchingNode kind).sublist (map_filterMap_sublist ?_ _)
  rintro ⟨index, directive⟩ decorator made
  simp only at made
  split at made
  · cases made
    rfl
  · cases made

/-- The claims on a node come in the order in which the directives were registered. -/
theorem ascending_claims (built : setup.registry.Built) (kind : NodeKind) :
    ((setup.claims kind).map (·.directive.index)).Pairwise (· < ·) := by
  refine (built.ascending_matchingNode kind).sublist (map_filterMap_sublist ?_ _)
  rintro ⟨index, directive⟩ claim made
  simp only [Claim.ofDirective?] at made
  split at made
  · cases made
  all_goals
    cases made
    rfl

theorem registered_of_mem_claims {kind : NodeKind} {directive : DirectiveRef}
    {source : ComponentSource} (member : .component directive source ∈ setup.claims kind) :
    ∃ found, setup.registry.get? directive.index = some found ∧
      found.kind = .component source := by
  rw [claims, claimsOf, List.mem_filterMap] at member
  obtain ⟨⟨index, found⟩, matched, made⟩ := member
  have known : setup.registry.get? index = some found := by
    cases kind with
    | element name attributes =>
        rw [Registry.matchingNode, Registry.matching, List.mem_filterMap] at matched
        obtain ⟨other, _, entry⟩ := matched
        obtain ⟨directive, got, equal⟩ := Option.map_eq_some_iff.mp entry
        cases equal
        exact got
    | _ => cases matched
  simp only [Claim.ofDirective?] at made
  split at made
  · cases made
  · cases made
  next component =>
    cases made
    exact ⟨found, known, component⟩

theorem source_unique {kind other : NodeKind} {directive again : DirectiveRef}
    {source second : ComponentSource}
    (claimed : setup.claims kind = [.component directive source])
    (reclaimed : setup.claims other = [.component again second])
    (same : directive.index = again.index) : source = second := by
  obtain ⟨found, known, component⟩ :=
    registered_of_mem_claims (claimed ▸ List.mem_singleton_self _)
  obtain ⟨twice, sameKnown, sameComponent⟩ :=
    registered_of_mem_claims (reclaimed ▸ List.mem_singleton_self _)
  rw [same, sameKnown] at known
  cases known
  rw [component] at sameComponent
  cases sameComponent
  rfl

/-- The views that were kept are views of their components. -/
def Keeps (setup : Setup) (progress : Progress) : Prop :=
  ∀ kind directive markup view, setup.claims kind = [.component directive (.inline markup)] →
    progress.views.lookup directive.index = some view → setup.Viewed (.inline markup) view

theorem Keeps.cons {progress : Progress} (keeps : setup.Keeps progress) {kind : NodeKind}
    {directive : DirectiveRef} {markup : String} {view : Factory}
    (claimed : setup.claims kind = [.component directive (.inline markup)])
    (viewed : setup.Viewed (.inline markup) view) :
    setup.Keeps { progress with views := (directive.index, view) :: progress.views } := by
  intro other again second found reclaimed looked
  rw [List.lookup_cons] at looked
  split at looked
  next same =>
    cases looked
    have equal := source_unique claimed reclaimed (beq_iff_eq.mp same).symm
    cases equal
    exact viewed
  next => exact keeps other again second found reclaimed looked

section markup
variable {keeps : Progress → Prop} {viewOf : DirectiveRef → ComponentSource → Work Factory}
  (views : setup.ViewsSound setup.Viewed keeps viewOf)
include views

theorem compiles_of_compileForest (ascending : setup.Ascending) {forest : Forest NodeKind}
    (bare : forest.Bare NodeKind.isElement) {progress next : Progress} {factory : Factory}
    (kept : keeps progress)
    (run : setup.compileForest viewOf forest progress = .ok factory next) :
    setup.Compiles [] forest factory := by
  have same := forest.map_snd_map_pair ()
  obtain ⟨marks, stage, marked, rfl⟩ := compileForest_eq_ok run
  obtain ⟨aligned, _⟩ :=
    mark_fits views (closed_compiles ascending) (same.symm ▸ bare) kept marked
  rw [same] at aligned
  exact closed_compiles ascending [] forest marks bare aligned

theorem viewed_of_compileMarkup (ascending : setup.Ascending) {markup : String}
    {progress next : Progress} {factory : Factory} (kept : keeps progress)
    (run : setup.compileMarkup viewOf markup progress = .ok factory next) :
    setup.Viewed (.inline markup) factory := by
  obtain ⟨forest, events, middle, parsed, reported, compiled⟩ := compileMarkup_eq_ok run
  have begun : keeps middle := (preserves_report views _).ok kept reported
  exact ⟨forest, events, parsed,
    compiles_of_compileForest views ascending (Markup.bare_of_parse parsed) begun compiled⟩

end markup

theorem remembers_keeps (ascending : setup.Ascending) :
    setup.Remembers setup.Viewed setup.Keeps where
  report _ _ kept := kept
  building _ _ kept := kept
  given _ _ _ _ := rfl
  found kind directive markup _ view claimed kept looked :=
    kept kind directive markup view claimed looked
  cons _ _ _ _ _ claimed kept viewed := kept.cons claimed viewed
  compile _ views _ _ _ _ kept run := viewed_of_compileMarkup views ascending kept run

/-- The way to component views is sound, whatever was compiled before. -/
theorem viewsSound_viewOf (ascending : setup.Ascending) (levels : Nat) :
    setup.ViewsSound setup.Viewed setup.Keeps (setup.viewOf levels) :=
  (remembers_keeps ascending).viewsSound levels

end Setup

namespace Compiler

/-- The compiler was made for a registry and a valid configuration, and used in any way since. -/
inductive Reached (registry : Registry) (config : Config) : Compiler → Prop where
  | start {compiler : Compiler} :
      Compiler.withConfig registry config = .ok compiler → Reached registry config compiler
  | compileHtml {compiler : Compiler} (source : String) :
      Reached registry config compiler →
      Reached registry config (compiler.compileHtml source).compiler
  | compile {compiler : Compiler} (doc : Document) (nodes : List NodeId) :
      Reached registry config compiler →
      Reached registry config (compiler.compile doc nodes).1.compiler
  | compileFactory {compiler : Compiler} (doc : Document) (nodes : List NodeId) :
      Reached registry config compiler →
      Reached registry config (compiler.compileFactory doc nodes).1.compiler

variable {compiler : Compiler}

def Keeps (compiler : Compiler) : Prop := compiler.setup.Keeps compiler.start

theorem viewsSound (ascending : compiler.setup.Ascending) :
    compiler.setup.ViewsSound compiler.setup.Viewed compiler.setup.Keeps compiler.viewOf :=
  Setup.viewsSound_viewOf ascending _

section keeps
variable {viewed : ComponentSource → Factory → Prop} {keeps : Progress → Prop}
  (views : compiler.setup.ViewsSound viewed keeps compiler.viewOf)
include views

theorem keeps_compileHtml (kept : keeps compiler.start) (source : String) :
    keeps (compiler.compileHtml source).compiler.start := by
  have preserves := Setup.preserves_compileMarkup views source compiler.start kept
  rw [compileHtml]
  cases run : compiler.setup.compileMarkup compiler.viewOf source compiler.start with
  | ok factory progress =>
      rw [run] at preserves
      exact views.report progress [] preserves
  | error error progress =>
      rw [run] at preserves
      exact views.report progress [] preserves

theorem keeps_onDocument {work : EStateM Error Site α}
    (preserves : Preserves (fun site => keeps site.progress) work)
    (kept : keeps compiler.start) (doc : Document) :
    keeps (compiler.onDocument doc work).1.compiler.start := by
  have result := preserves ⟨compiler.start, doc⟩ kept
  rw [onDocument]
  cases run : work ⟨compiler.start, doc⟩ with
  | ok value site =>
      rw [run] at result
      exact views.report site.progress [] result
  | error error site =>
      rw [run] at result
      exact views.report site.progress [] result

theorem preserves_compileNode (node : NodeId) :
    Preserves (fun site => keeps site.progress) (compiler.compileNode node) := by
  intro site kept
  have preserves := Setup.preserves_mark views (site.doc.forest [node]) ⟨site.progress, []⟩ kept
  rw [compileNode]
  cases run : compiler.setup.mark compiler.viewOf (site.doc.forest [node])
      ⟨site.progress, []⟩ with
  | ok marks stage =>
      rw [run] at preserves
      exact preserves
  | error error stage =>
      rw [run] at preserves
      exact preserves

theorem preserves_compileNodes (nodes : List NodeId) :
    Preserves (fun site => keeps site.progress) (compiler.compileNodes nodes) := by
  have each : Preserves (fun site => keeps site.progress) (compiler.compileEach nodes) := by
    induction nodes with
    | nil => exact .pure _
    | cons node rest induction =>
        exact (preserves_compileNode views node).bind fun _ => induction.bind fun _ => .pure _
  refine each.bind fun _ => ?_
  intro site kept
  exact views.report site.progress _ kept

end keeps

theorem setup_onDocument (work : EStateM Error Site α) (doc : Document) :
    (compiler.onDocument doc work).1.compiler.setup = compiler.setup := by
  rw [onDocument]
  cases work ⟨compiler.start, doc⟩ <;> rfl

theorem setup_compileHtml (source : String) :
    (compiler.compileHtml source).compiler.setup = compiler.setup := by
  rw [compileHtml]
  cases compiler.setup.compileMarkup compiler.viewOf source compiler.start <;> rfl

section reached
variable {registry : Registry} {config : Config}

theorem Reached.setup_eq (reached : Reached registry config compiler) :
    compiler.setup = ⟨registry, config⟩ := by
  induction reached with
  | start made =>
      rw [withConfig] at made
      split at made
      · cases made
      · cases made
        rfl
  | compileHtml source _ induction => rw [setup_compileHtml, induction]
  | compile doc nodes _ induction => rw [Compiler.compile, setup_onDocument, induction]
  | compileFactory doc nodes _ induction =>
      rw [Compiler.compileFactory, setup_onDocument, induction]

theorem Reached.ascending (reached : Reached registry config compiler) (built : registry.Built) :
    compiler.setup.Ascending := by
  apply Setup.ascending_of_built
  rw [reached.setup_eq]
  exact built

/-- Whatever holds at the start and is kept by the way to component views holds ever after. -/
theorem Reached.keeps_start {viewed : ComponentSource → Factory → Prop} {keeps : Progress → Prop}
    (views : ∀ {compiler}, Reached registry config compiler →
      compiler.setup.ViewsSound viewed keeps compiler.viewOf)
    (fresh : keeps ⟨[], [], []⟩) (reached : Reached registry config compiler) :
    keeps compiler.start := by
  induction reached with
  | start made =>
      rw [withConfig] at made
      split at made
      · cases made
      · cases made
        exact fresh
  | compileHtml source earlier induction =>
      exact keeps_compileHtml (views earlier) induction source
  | compile doc nodes earlier induction =>
      exact keeps_onDocument (views earlier) (preserves_compileNodes (views earlier) nodes)
        induction doc
  | compileFactory doc nodes earlier induction =>
      refine keeps_onDocument (views earlier) ?_ induction doc
      refine (preserves_compileNodes (views earlier) nodes).bind fun _ => ?_
      intro site kept
      exact kept

theorem Reached.keeps (built : registry.Built) (reached : Reached registry config compiler) :
    compiler.Keeps := by
  have views {compiler : Compiler} (earlier : Reached registry config compiler) :
      compiler.setup.ViewsSound (Setup.Viewed ⟨registry, config⟩)
        (Setup.Keeps ⟨registry, config⟩) compiler.viewOf := by
    rw [← earlier.setup_eq]
    exact viewsSound (earlier.ascending built)
  rw [Keeps, reached.setup_eq]
  exact keeps_start views (fun _ _ _ _ _ looked => nomatch looked) reached

end reached

/-- A compiled markup text is a factory as specified, with every factory in it. -/
theorem compiles_of_compileHtml {registry : Registry} {config : Config} (built : registry.Built)
    (reached : Reached registry config compiler) {source : String} {factory : Factory}
    (success : (compiler.compileHtml source).outcome = .ok factory) :
    ∃ forest events, Markup.parse source = .ok (forest, events) ∧
      compiler.setup.Compiles [] forest factory := by
  rw [compileHtml] at success
  split at success
  next found progress run =>
    cases success
    exact Setup.viewed_of_compileMarkup (viewsSound (reached.ascending built))
      (reached.ascending built) (reached.keeps built) run
  next => cases success

end Compiler

end ViewTemplates
