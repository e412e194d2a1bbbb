import ViewTemplates.Proofs.Compiler.Components
import ViewTemplates.Proofs.Compiler.Documents

/-!
Factories whose texts and comments are leaves, in every template in them. Compilation makes such
factories out of such factories, from any nodes, fragments included.
-/

namespace ViewTemplates

/-- The views that a binder brings along. -/
def ElementBinder.views (binder : ElementBinder φ) : List φ :=
  (binder.role.binding?.toList ++ binder.slots.filterMap fun slot => slot.kind.binding?).map
    (·.view)

namespace Mark

def views : Mark φ → List φ
  | element _ _ role => role.binding?.toList.map (·.view)
  | slot _ kind => kind.binding?.toList.map (·.view)
  | unbound _ => []

/-- The view stands in one of the marks. -/
def Among (marks : Forest (Mark φ)) (view : φ) : Prop := ∃ mark ∈ marks.preorder, view ∈ mark.views

/-- Every view in the binders was in the marks. -/
theorem among_of_binders {marks : Forest (Mark φ)} {decorators : List DirectiveRef} {view : φ}
    (member : view ∈ (binders decorators marks).flatMap ElementBinder.views) :
    Among marks view := by
  obtain ⟨binder, listed, inside⟩ := List.mem_flatMap.mp member
  have yields := yields_of_mem_binders listed
  rw [ElementBinder.views, List.map_append, List.mem_append] at inside
  rcases inside with here | anchored
  · rcases yields.role with decorated | ⟨kind, found, marked⟩
    · rw [decorated] at here
      cases here
    · exact ⟨_, marked, here⟩
  · obtain ⟨binding, found, rfl⟩ := List.mem_map.mp anchored
    obtain ⟨slot, inside, bound⟩ := List.mem_filterMap.mp found
    obtain ⟨kind, marked⟩ := yields.slots slot inside
    refine ⟨_, marked, ?_⟩
    rw [views, bound]
    exact List.mem_singleton_self _

end Mark

/-- Nothing is below a text or a comment, in the template and in every template in it. -/
inductive Factory.Leafy : Factory → Prop where
  | intro {template : Forest NodeKind} {binders : List (ElementBinder Factory)} :
      template.Bare NodeKind.isContainer →
      (∀ view ∈ binders.flatMap ElementBinder.views, Leafy view) → Leafy (.mk template binders)

theorem Factory.Leafy.bare {factory : Factory} (leafy : factory.Leafy) :
    factory.template.Bare NodeKind.isContainer := by
  cases leafy with
  | intro bare => exact bare

theorem Factory.Leafy.view {factory view : Factory} (leafy : factory.Leafy)
    (member : view ∈ factory.binders.flatMap ElementBinder.views) : view.Leafy := by
  cases leafy with
  | intro _ views => exact views view member

/-- The marks of a leafy factory. -/
structure Mark.Leafy (marks : Forest (Mark Factory)) : Prop where
  bare : (marks.map Mark.kind).Bare NodeKind.isContainer
  views : ∀ view, Mark.Among marks view → view.Leafy

namespace Mark.Leafy

theorem nil : Mark.Leafy .nil := ⟨trivial, fun _ ⟨_, member, _⟩ => nomatch member⟩

theorem tree {mark : Mark Factory} {below : Forest (Mark Factory)} (leafy : Mark.Leafy below)
    (container : mark.kind.isContainer = true) (views : ∀ view ∈ mark.views, view.Leafy) :
    Mark.Leafy (.tree mark below) where
  bare := by
    refine ⟨fun leaf => ?_, leafy.bare, trivial⟩
    rw [container] at leaf
    cases leaf
  views := by
    rintro view ⟨other, member, inside⟩
    rw [Forest.preorder, Forest.preorder, List.append_nil] at member
    rcases List.mem_cons.mp member with rfl | member
    · exact views view inside
    · exact leafy.views view ⟨other, member, inside⟩

theorem leaf {mark : Mark Factory} (views : ∀ view ∈ mark.views, view.Leafy) :
    Mark.Leafy (.leaf mark) where
  bare := .leaf _ _
  views := by
    rintro view ⟨other, member, inside⟩
    rw [List.mem_singleton.mp member] at inside
    exact views view inside

theorem append {first second : Forest (Mark Factory)} (left : Mark.Leafy first)
    (right : Mark.Leafy second) : Mark.Leafy (first ++ second) where
  bare := by
    rw [Forest.map_append]
    exact left.bare.append right.bare
  views := by
    rintro view ⟨mark, member, inside⟩
    rw [Forest.preorder_append] at member
    rcases List.mem_append.mp member with member | member
    · exact left.views view ⟨mark, member, inside⟩
    · exact right.views view ⟨mark, member, inside⟩

theorem unbound {forest : Forest NodeKind} (bare : forest.Bare NodeKind.isContainer) :
    Mark.Leafy (forest.map Mark.unbound) where
  bare := by
    rw [Forest.bare_map, Forest.bare_map]
    exact bare
  views := by
    rintro view ⟨mark, member, inside⟩
    rw [Forest.preorder_map] at member
    obtain ⟨kind, _, rfl⟩ := List.mem_map.mp member
    cases inside

theorem ofMarks {marks : Forest (Mark Factory)} (leafy : Mark.Leafy marks)
    (decorators : List DirectiveRef) : (Factory.ofMarks decorators marks).Leafy :=
  .intro leafy.bare fun view member => leafy.views view (Mark.among_of_binders member)

end Mark.Leafy

namespace Setup

variable {setup : Setup} {keeps : Progress → Prop}
  {viewOf : DirectiveRef → ComponentSource → Work Factory}

theorem leafy_markOther (setup : Setup) {kind : NodeKind} {below : Forest NodeKind}
    (bare : (Forest.tree kind below).Bare NodeKind.isContainer) :
    Mark.Leafy (.tree (setup.markOther kind) (below.map Mark.unbound)) := by
  obtain ⟨bottom, bareBelow, _⟩ := bare
  have quiet : Mark.Leafy ((Forest.tree kind below).map Mark.unbound) :=
    .unbound ⟨bottom, bareBelow, trivial⟩
  cases kind with
  | text value =>
      rw [bottom rfl] at quiet ⊢
      simp only [markOther]
      split
      · refine .leaf fun view member => ?_
        cases member
      · exact quiet
  | _ => exact quiet

theorem leafy_markAnchor {node : ι} {kind : NodeKind} {directive : DirectiveRef}
    {content marks : Forest (Mark Factory)} {stage last : Stage ι}
    (container : kind.isContainer = true) (leafy : Mark.Leafy content)
    (run : setup.markAnchor node kind directive content stage = .ok marks last) :
    Mark.Leafy marks := by
  obtain ⟨_, reported, reporting, placed⟩ := bind_eq_ok run
  cases reporting
  have view (decorators : List DirectiveRef) (view : Factory)
      (member : view ∈ [Factory.ofMarks decorators content]) : view.Leafy := by
    rw [List.mem_singleton.mp member]
    exact leafy.ofMarks decorators
  split at placed
  · cases placed
    exact .leaf (view _)
  · cases placed
    exact Mark.Leafy.tree (.leaf nofun) container (view _)

section walk
variable (views : setup.ViewsSound (fun _ view => view.Leafy) keeps viewOf)
include views

theorem leafy_markTree {node : ι} {kind : NodeKind} {below : Forest (ι × NodeKind)}
    (bare : (Forest.tree kind (below.map Prod.snd)).Bare NodeKind.isContainer)
    (inner : ∀ {stage last : Stage ι} {marks : Forest (Mark Factory)}, keeps stage.progress →
      setup.mark viewOf below stage = .ok marks last → Mark.Leafy marks)
    {stage last : Stage ι} {marks : Forest (Mark Factory)} (kept : keeps stage.progress)
    (run : setup.markTree viewOf node kind below stage = .ok marks last) : Mark.Leafy marks := by
  have container (isElement : kind.isElement = true) : kind.isContainer = true := by
    cases kind with
    | element => rfl
    | _ => cases isElement
  cases treeMarked run with
  | other =>
      have other := leafy_markOther setup bare
      rw [Forest.map_map] at other
      exact other
  | unclaimed isElement _ visited => exact (inner kept visited).tree (container isElement) nofun
  | component isElement claimed worked visited =>
      have still := (views.preserves kind _ _ claimed).ok kept worked
      refine (inner (by exact still) visited).tree (container isElement) fun view member => ?_
      rw [List.mem_singleton.mp member]
      exact views.sound kind _ _ claimed _ _ _ kept worked
  | template isElement _ visited placed =>
      exact leafy_markAnchor (container isElement) (inner (by exact kept) visited) placed

theorem leafy_mark {forest : Forest (ι × NodeKind)}
    (bare : (forest.map Prod.snd).Bare NodeKind.isContainer) {stage last : Stage ι}
    {marks : Forest (Mark Factory)} (kept : keeps stage.progress)
    (run : setup.mark viewOf forest stage = .ok marks last) : Mark.Leafy marks := by
  induction forest generalizing stage last marks with
  | nil =>
      cases run
      exact .nil
  | cons entry below rest inner outer =>
      obtain ⟨node, kind⟩ := entry
      obtain ⟨bottom, bareBelow, bareRest⟩ := bare
      rw [mark_cons] at run
      obtain ⟨head, middle, first, following⟩ := bind_eq_ok run
      obtain ⟨tail, final, second, made⟩ := bind_eq_ok following
      cases made
      have still : keeps middle.progress :=
        (preserves_markTree views node kind (preserves_mark views below)).ok kept first
      have here := leafy_markTree views ⟨bottom, bareBelow, trivial⟩ (inner bareBelow) kept first
      exact here.append (outer bareRest still second)

theorem leafy_compileMarkup {markup : String} {progress next : Progress} {factory : Factory}
    (kept : keeps progress)
    (run : setup.compileMarkup viewOf markup progress = .ok factory next) : factory.Leafy := by
  obtain ⟨forest, events, middle, parsed, reported, compiled⟩ := compileMarkup_eq_ok run
  obtain ⟨marks, stage, marked, rfl⟩ := compileForest_eq_ok compiled
  have begun : keeps middle := (preserves_report views _).ok kept reported
  have same := forest.map_snd_map_pair ()
  have bare := (Markup.bare_of_parse parsed).mono NodeKind.isElement_of_not_isContainer
  exact (leafy_mark views (same.symm ▸ bare) begun marked).ofMarks []

end walk

/-- The given views of components are leafy. -/
def GivenLeafy (setup : Setup) : Prop :=
  ∀ index directive factory, setup.registry.get? index = some directive →
    directive.kind = .component (.compiled factory) → factory.Leafy

def KeptLeafy (progress : Progress) : Prop :=
  ∀ component view, (component, view) ∈ progress.views → view.Leafy

theorem remembers_leafy (given : setup.GivenLeafy) :
    setup.Remembers (fun _ view => view.Leafy) KeptLeafy where
  report _ _ kept := kept
  building _ _ kept := kept
  given kind directive factory claimed := by
    obtain ⟨found, known, component⟩ :=
      registered_of_mem_claims (claimed ▸ List.mem_singleton_self _)
    exact given directive.index found factory known component
  found kind directive markup progress view _ kept looked := by
    obtain ⟨before, after, listed, _⟩ := List.lookup_eq_some_iff.mp looked
    exact kept directive.index view (listed ▸ List.mem_append_right _ List.mem_cons_self)
  cons kind directive markup progress view _ kept leafy := by
    intro component other member
    rcases List.mem_cons.mp member with equal | member
    · cases equal
      exact leafy
    · exact kept component other member
  compile _ views _ _ _ _ kept run := leafy_compileMarkup views kept run

end Setup

namespace Compiler

variable {compiler : Compiler}

/-- The views that a compiler was given or has kept are leafy. -/
structure Leafy (compiler : Compiler) : Prop where
  given : compiler.setup.GivenLeafy
  kept : Setup.KeptLeafy compiler.start

theorem Leafy.viewsSound (leafy : compiler.Leafy) :
    compiler.setup.ViewsSound (fun _ view => view.Leafy) Setup.KeptLeafy compiler.viewOf :=
  (Setup.remembers_leafy leafy.given).viewsSound _

theorem Leafy.compileHtml (leafy : compiler.Leafy) (source : String) :
    (compiler.compileHtml source).compiler.Leafy where
  given := by
    rw [setup_compileHtml]
    exact leafy.given
  kept := keeps_compileHtml leafy.viewsSound leafy.kept source

theorem Leafy.onDocument (leafy : compiler.Leafy) {work : EStateM Error Site α}
    (preserves : Preserves (fun site => Setup.KeptLeafy site.progress) work) (doc : Document) :
    (compiler.onDocument doc work).1.compiler.Leafy where
  given := by
    rw [setup_onDocument]
    exact leafy.given
  kept := keeps_onDocument leafy.viewsSound preserves leafy.kept doc

theorem Leafy.compile (leafy : compiler.Leafy) (doc : Document) (nodes : List NodeId) :
    (compiler.compile doc nodes).1.compiler.Leafy :=
  leafy.onDocument (preserves_compileNodes leafy.viewsSound nodes) doc

theorem Leafy.compileFactory (leafy : compiler.Leafy) (doc : Document) (nodes : List NodeId) :
    (compiler.compileFactory doc nodes).1.compiler.Leafy := by
  refine leafy.onDocument ((preserves_compileNodes leafy.viewsSound nodes).bind fun _ => ?_) doc
  intro site kept
  exact kept

theorem Leafy.outcome_compileHtml (leafy : compiler.Leafy) {source : String} {factory : Factory}
    (success : (compiler.compileHtml source).outcome = .ok factory) : factory.Leafy := by
  rw [Compiler.compileHtml] at success
  split at success
  next run =>
    cases success
    exact Setup.leafy_compileMarkup leafy.viewsSound leafy.kept run
  next => cases success

section walk
variable (leafy : compiler.Leafy) {used : Nat} {site last : Site}
include leafy

theorem leafy_compileNode {node place : NodeId} {marks : Forest (Mark Factory)}
    (sound : SiteSound used site) (kept : Setup.KeptLeafy site.progress)
    (run : compiler.compileNode node site = .ok (place, marks) last) : Mark.Leafy marks := by
  rw [compileNode] at run
  split at run
  · cases run
  next marked =>
    cases run
    exact Setup.leafy_mark leafy.viewsSound (sound.1.bare_kinds [node]) (by exact kept) marked

theorem leafy_compileEach {nodes places : List NodeId} {marks : Forest (Mark Factory)}
    (bound : ∀ node ∈ nodes, node < used) (sound : SiteSound used site)
    (kept : Setup.KeptLeafy site.progress)
    (run : compiler.compileEach nodes site = .ok (places, marks) last) : Mark.Leafy marks := by
  induction nodes generalizing site places marks with
  | nil =>
      cases run
      exact .nil
  | cons node rest induction =>
      obtain ⟨here, later⟩ := List.forall_mem_cons.mp bound
      obtain ⟨⟨place, head⟩, middle, first, following⟩ := bind_eq_ok run
      obtain ⟨⟨others, tail⟩, final, second, made⟩ := bind_eq_ok following
      cases made
      have stillSound := (siteSound_compileNode here).ok sound first
      have stillKept := (preserves_compileNode leafy.viewsSound node).ok kept first
      exact (leafy_compileNode leafy sound kept first).append
        (induction later stillSound stillKept second)

theorem leafy_compileNodes {nodes : List NodeId} {compiled : Compiled}
    (bound : ∀ node ∈ nodes, node < used) (sound : SiteSound used site)
    (kept : Setup.KeptLeafy site.progress)
    (run : compiler.compileNodes nodes site = .ok compiled last) :
    ∀ view ∈ compiled.binders.flatMap ElementBinder.views, view.Leafy := by
  obtain ⟨⟨places, marks⟩, middle, walked, made⟩ := bind_eq_ok run
  cases made
  intro view member
  exact (leafy_compileEach leafy bound sound kept walked).views view
    (Mark.among_of_binders member)

end walk

section outcome
variable {doc : Document} {nodes : List NodeId} (leafy : compiler.Leafy)
  (wellFormed : doc.WellFormed) (bound : ∀ node ∈ nodes, node < doc.size)
include leafy wellFormed bound

theorem Leafy.outcome_compile {compiled : Compiled}
    (success : (compiler.compile doc nodes).1.outcome = .ok compiled) :
    ∀ view ∈ compiled.binders.flatMap ElementBinder.views, view.Leafy := by
  rw [Compiler.compile, Compiler.onDocument] at success
  split at success
  next run =>
    cases success
    exact leafy_compileNodes leafy bound ⟨wellFormed, Nat.le_refl _⟩ leafy.kept run
  next => cases success

theorem Leafy.outcome_compileFactory {factory : Factory}
    (success : (compiler.compileFactory doc nodes).1.outcome = .ok factory) : factory.Leafy := by
  rw [Compiler.compileFactory, Compiler.onDocument] at success
  split at success
  next run =>
    cases success
    obtain ⟨compiled, middle, walked, made⟩ := bind_eq_ok run
    cases made
    have begun : SiteSound doc.size ⟨compiler.start, doc⟩ := ⟨wellFormed, Nat.le_refl _⟩
    have sound := (siteSound_compileNodes bound).ok begun walked
    exact .intro (sound.1.bare_kinds _) (leafy_compileNodes leafy bound begun leafy.kept walked)
  next => cases success

end outcome

end Compiler

end ViewTemplates
