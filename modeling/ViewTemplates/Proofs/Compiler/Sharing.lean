import ViewTemplates.Proofs.Compiler.Uniqueness
import ViewTemplates.Proofs.Factory.Relocation

/-!
The views of components. Wherever a compilation binds a component, at any depth, the view is the one
that was given with the component or that its markup is compiled to. Bindings of one component
therefore share one view.
-/

namespace ViewTemplates

namespace Setup

variable {setup : Setup}

/-- The view is the one that the component stands for. -/
def Supplies (setup : Setup) (binding : Binding Factory) : Prop :=
  ∃ directive source, setup.registry.get? binding.directive.index = some directive ∧
    directive.kind = .component source ∧ setup.Viewed source binding.view

theorem Supplies.view_eq {binding other : Binding Factory} (supplies : setup.Supplies binding)
    (again : setup.Supplies other) (same : binding.directive.index = other.directive.index) :
    binding.view = other.view := by
  obtain ⟨directive, source, known, component, viewed⟩ := supplies
  obtain ⟨found, second, sameKnown, sameComponent, sameViewed⟩ := again
  rw [same, sameKnown] at known
  cases known
  rw [component] at sameComponent
  cases sameComponent
  exact viewed.unique sameViewed

theorem Supplies.viewed {binding : Binding Factory} (supplies : setup.Supplies binding)
    {directive : Directive} {source : ComponentSource}
    (known : setup.registry.get? binding.directive.index = some directive)
    (component : directive.kind = .component source) : setup.Viewed source binding.view := by
  obtain ⟨found, same, sameKnown, sameComponent, viewed⟩ := supplies
  rw [known] at sameKnown
  cases sameKnown
  rw [component] at sameComponent
  cases sameComponent
  exact viewed

theorem supplies_of_claims {kind : NodeKind} {directive : DirectiveRef} {source : ComponentSource}
    {view : Factory} (claimed : setup.claims kind = [.component directive source])
    (viewed : setup.Viewed source view) : setup.Supplies ⟨directive, view⟩ := by
  obtain ⟨found, known, component⟩ :=
    registered_of_mem_claims (claimed ▸ List.mem_singleton_self _)
  exact ⟨found, source, known, component, viewed⟩

/-- A component is bound in the factory, or in a factory in it. -/
def BindsWithin (setup : Setup) (factory : Factory) (binding : Binding Factory) : Prop :=
  ∃ inner binder, setup.Within factory inner ∧ binder ∈ inner.binders ∧
    binder.role = .component binding

def Supplied (setup : Setup) (factory : Factory) : Prop :=
  ∀ binding, setup.BindsWithin factory binding → setup.Supplies binding

theorem Compiles.supplied {decorators : List DirectiveRef} {source : Forest NodeKind}
    {factory : Factory} (compiles : setup.Compiles decorators source factory) :
    setup.Supplied factory := by
  rintro binding ⟨inner, binder, within, member, role⟩
  obtain ⟨_, content, compiled⟩ := within.compiles compiles
  rcases (compiled.binds binder member).value with decorated | ⟨origin, found, fits⟩
  · rw [role] at decorated
    cases decorated
  · rw [role] at fits
    cases fits with
    | @component _ directive source view claimed fitting =>
        have viewed : setup.Viewed source view := by
          cases source with
          | compiled factory => exact fitting
          | inline markup =>
              obtain ⟨forest, events, parsed⟩ := fitting
              have nests : setup.Nests (setup.origins content) _ _ _ _ :=
                .component member found claimed role parsed
              exact ⟨forest, events, parsed, compiled.nested nests⟩
        exact supplies_of_claims claimed viewed

/-! Marks that bind components to their views. -/

def RoleSupplied (setup : Setup) : Role Factory → Prop
  | .decorated => True
  | .component binding => setup.Supplies binding
  | .template binding => setup.Supplied binding.view

def MarkSupplied (setup : Setup) : Mark Factory → Prop
  | .element _ _ role => setup.RoleSupplied role
  | .slot _ (.anchor binding) => setup.Supplied binding.view
  | _ => True

def MarksSupplied (setup : Setup) (marks : Forest (Mark Factory)) : Prop :=
  ∀ mark ∈ marks.preorder, setup.MarkSupplied mark

theorem MarksSupplied.tree {mark : Mark Factory} {below : Forest (Mark Factory)}
    (here : setup.MarkSupplied mark) (supplied : setup.MarksSupplied below) :
    setup.MarksSupplied (.tree mark below) :=
  Forest.forall_mem_preorder_cons.mpr ⟨here, supplied, nofun⟩

theorem MarksSupplied.append {first second : Forest (Mark Factory)}
    (left : setup.MarksSupplied first) (right : setup.MarksSupplied second) :
    setup.MarksSupplied (first ++ second) := by
  intro mark member
  rw [Forest.preorder_append, List.mem_append] at member
  exact member.elim (left mark) (right mark)

theorem MarksSupplied.role {marks : Forest (Mark Factory)} (marked : setup.MarksSupplied marks)
    {decorators : List DirectiveRef} {binder : ElementBinder Factory}
    (member : binder ∈ Mark.binders decorators marks) : setup.RoleSupplied binder.role := by
  rcases (Mark.yields_of_mem_binders member).role with decorated | ⟨_, _, found⟩
  · rw [decorated]
    trivial
  · exact marked _ found

/-- What such marks become binds all components to their views. -/
theorem MarksSupplied.supplied {marks : Forest (Mark Factory)}
    (marked : setup.MarksSupplied marks) (template : Forest NodeKind)
    (decorators : List DirectiveRef) :
    setup.Supplied (.mk template (Mark.binders decorators marks)) := by
  rintro binding ⟨inner, binder, within, member, role⟩
  cases within with
  | self =>
      have supplies := marked.role member
      rw [role] at supplies
      exact supplies
  | anchor outer slotMember anchored deeper =>
      obtain ⟨kind, found⟩ := (Mark.yields_of_mem_binders outer).slots _ slotMember
      have supplied := marked _ found
      rw [anchored] at supplied
      exact supplied binding ⟨inner, binder, deeper, member, role⟩
  | template outer outerRole deeper =>
      have supplied := marked.role outer
      rw [outerRole] at supplied
      exact supplied binding ⟨inner, binder, deeper, member, role⟩
  | component outer outerRole known inline deeper =>
      have supplies := marked.role outer
      rw [outerRole] at supplies
      obtain ⟨_, _, _, compiles⟩ := Supplies.viewed supplies known inline
      exact compiles.supplied binding ⟨inner, binder, deeper, member, role⟩

theorem markSupplied_markOther (kind : NodeKind) : setup.MarkSupplied (setup.markOther kind) := by
  cases kind with
  | text value =>
      rw [markOther]
      split <;> trivial
  | _ => trivial

theorem marksSupplied_unbound (forest : Forest α) (kind : α → NodeKind) :
    setup.MarksSupplied (forest.map fun entry => .unbound (kind entry)) := by
  intro mark member
  rw [Forest.preorder_map] at member
  obtain ⟨entry, _, rfl⟩ := List.mem_map.mp member
  trivial

theorem marksSupplied_markAnchor {node : ι} {kind : NodeKind} {directive : DirectiveRef}
    {content marks : Forest (Mark Factory)} {stage last : Stage ι}
    (supplied : setup.MarksSupplied content)
    (run : setup.markAnchor node kind directive content stage = .ok marks last) :
    setup.MarksSupplied marks := by
  obtain ⟨_, _, _, placed⟩ := bind_eq_ok run
  split at placed
  · cases placed
    exact .tree (supplied.supplied _ _) nofun
  · cases placed
    exact .tree (supplied.supplied _ _) (.tree trivial nofun)

section walk
variable {keeps : Progress → Prop} {viewOf : DirectiveRef → ComponentSource → Work Factory}
  (views : setup.ViewsSound setup.Viewed keeps viewOf)
include views

theorem marksSupplied_markTree {node : ι} {kind : NodeKind} {below : Forest (ι × NodeKind)}
    (inner : ∀ {stage last : Stage ι} {marks : Forest (Mark Factory)}, keeps stage.progress →
      setup.mark viewOf below stage = .ok marks last → setup.MarksSupplied marks)
    {stage last : Stage ι} {marks : Forest (Mark Factory)} (kept : keeps stage.progress)
    (run : setup.markTree viewOf node kind below stage = .ok marks last) :
    setup.MarksSupplied marks := by
  cases treeMarked run with
  | other => exact .tree (markSupplied_markOther kind) (marksSupplied_unbound below _)
  | unclaimed _ _ visited => exact .tree trivial (inner kept visited)
  | component _ claimed worked visited =>
      have still := (views.preserves kind _ _ claimed).ok kept worked
      have viewed := views.sound kind _ _ claimed _ _ _ kept worked
      exact .tree (supplies_of_claims claimed viewed) (inner (by exact still) visited)
  | template _ _ visited placed =>
      exact marksSupplied_markAnchor (inner (by exact kept) visited) placed

/-- The walk binds components to their views, whatever it meets. -/
theorem marksSupplied_mark {forest : Forest (ι × NodeKind)} {stage last : Stage ι}
    {marks : Forest (Mark Factory)} (kept : keeps stage.progress)
    (run : setup.mark viewOf forest stage = .ok marks last) : setup.MarksSupplied marks := by
  induction forest generalizing stage last marks with
  | nil =>
      cases run
      exact nofun
  | cons entry below rest inner outer =>
      obtain ⟨node, kind⟩ := entry
      rw [mark_cons] at run
      obtain ⟨head, middle, first, following⟩ := bind_eq_ok run
      obtain ⟨tail, final, second, made⟩ := bind_eq_ok following
      cases made
      have still : keeps middle.progress :=
        (preserves_markTree views node kind (preserves_mark views below)).ok kept first
      exact (marksSupplied_markTree views inner kept first).append (outer still second)

end walk

end Setup

namespace Compiler

variable {compiler : Compiler} {registry : Registry} {config : Config}

section walk
variable {keeps : Progress → Prop}
  (views : compiler.setup.ViewsSound compiler.setup.Viewed keeps compiler.viewOf)
include views

theorem marksSupplied_compileEach {nodes places : List NodeId} {marks : Forest (Mark Factory)}
    {site last : Site} (kept : keeps site.progress)
    (run : compiler.compileEach nodes site = .ok (places, marks) last) :
    compiler.setup.MarksSupplied marks := by
  induction nodes generalizing site places marks with
  | nil =>
      cases run
      exact nofun
  | cons node rest induction =>
      obtain ⟨⟨place, head⟩, middle, first, following⟩ := bind_eq_ok run
      obtain ⟨⟨others, tail⟩, final, second, made⟩ := bind_eq_ok following
      cases made
      have still := (preserves_compileNode views node).ok kept first
      have here : compiler.setup.MarksSupplied head := by
        rw [compileNode] at first
        split at first
        · cases first
        next marked =>
          cases first
          exact Setup.marksSupplied_mark views (by exact kept) marked
      exact here.append (induction still second)

theorem supplied_compileNodes {nodes : List NodeId} {compiled : Compiled} {site last : Site}
    (kept : keeps site.progress) (run : compiler.compileNodes nodes site = .ok compiled last)
    (template : Forest NodeKind) :
    compiler.setup.Supplied (.mk template compiled.binders) := by
  obtain ⟨⟨places, marks⟩, middle, walked, made⟩ := bind_eq_ok run
  cases made
  exact (marksSupplied_compileEach views kept walked).supplied template []

end walk

section reached
variable (built : registry.Built) (reached : compiler.Reached registry config) {doc : Document}
  {nodes : List NodeId}
include built reached

theorem Reached.supplied_compileHtml {source : String} {factory : Factory}
    (success : (compiler.compileHtml source).outcome = .ok factory) :
    compiler.setup.Supplied factory := by
  obtain ⟨_, _, _, compiles⟩ := compiles_of_compileHtml built reached success
  exact compiles.supplied

theorem Reached.supplied_compile {compiled : Compiled}
    (success : (compiler.compile doc nodes).1.outcome = .ok compiled)
    (template : Forest NodeKind) : compiler.setup.Supplied (.mk template compiled.binders) := by
  rw [Compiler.compile, onDocument] at success
  split at success
  next run =>
    cases success
    have kept : compiler.setup.Keeps compiler.start := reached.keeps built
    exact supplied_compileNodes (viewsSound (reached.ascending built)) (by exact kept) run template
  next => cases success

theorem Reached.supplied_compileFactory {factory : Factory}
    (success : (compiler.compileFactory doc nodes).1.outcome = .ok factory) :
    compiler.setup.Supplied factory := by
  rw [Compiler.compileFactory, onDocument] at success
  split at success
  next run =>
    cases success
    obtain ⟨compiled, middle, walked, made⟩ := bind_eq_ok run
    cases made
    have kept : compiler.setup.Keeps compiler.start := reached.keeps built
    exact supplied_compileNodes (viewsSound (reached.ascending built)) (by exact kept) walked _
  next => cases success

end reached

end Compiler

end ViewTemplates
