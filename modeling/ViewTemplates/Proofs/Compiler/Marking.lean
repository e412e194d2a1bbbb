import ViewTemplates.Proofs.Compiler.Specification
import ViewTemplates.Proofs.Runs

/-!
The compiler's walk over the source. Where it succeeds, its marks have the shape of the template
that the source should become, and each mark fits the origin of its node.
-/

namespace ViewTemplates.Setup

variable {setup : Setup} {compiles : List DirectiveRef → Forest NodeKind → Factory → Prop}
  {viewed : ComponentSource → Factory → Prop}

/-- A mark and the origin of the marked node, the views in the mark being as wanted. -/
inductive MarkFits (setup : Setup)
    (compiles : List DirectiveRef → Forest NodeKind → Factory → Prop)
    (viewed : ComponentSource → Factory → Prop) : Origin → Mark Factory → Prop where
  | decorated {kind : NodeKind} :
      kind.isElement = true → setup.claims kind = [] →
      MarkFits setup compiles viewed (.kept kind)
        (.element kind (setup.decorators kind) .decorated)
  | component {kind : NodeKind} {directive : DirectiveRef} {source : ComponentSource}
      {view : Factory} :
      kind.isElement = true → setup.claims kind = [.component directive source] →
      viewed source view →
      MarkFits setup compiles viewed (.kept kind)
        (.element kind (setup.decorators kind) (.component ⟨directive, view⟩))
  | emptied {kind : NodeKind} {content : Forest NodeKind} {directive : DirectiveRef}
      {view : Factory} :
      kind.isElement = true → setup.claims kind = [.template directive] →
      compiles [] content view →
      MarkFits setup compiles viewed (.emptied kind content)
        (.element kind (setup.decorators kind) (.template ⟨directive, view⟩))
  | inside : MarkFits setup compiles viewed .inside (.unbound setup.anchor)
  | instead {kind : NodeKind} {content : Forest NodeKind} {directive : DirectiveRef}
      {view : Factory} :
      setup.claims kind = [.template directive] → compiles (setup.decorators kind) content view →
      MarkFits setup compiles viewed (.instead kind content)
        (.slot setup.anchor (.anchor ⟨directive, view⟩))
  | text {value : String} :
      setup.config.interpolation.requiresBinding value = true →
      MarkFits setup compiles viewed (.kept (.text value)) (.slot (.text value) .text)
  | unbound {kind : NodeKind} :
      kind.isElement = false → setup.isBound (.kept kind) = false →
      MarkFits setup compiles viewed (.kept kind) (.unbound kind)

/-- Fitting marks make a compiled factory. -/
def Closed (setup : Setup)
    (compiles : List DirectiveRef → Forest NodeKind → Factory → Prop)
    (viewed : ComponentSource → Factory → Prop) : Prop :=
  ∀ (decorators : List DirectiveRef) (source : Forest NodeKind) (marks : Forest (Mark Factory)),
    source.Bare NodeKind.isElement →
    Forest.Aligned (setup.MarkFits compiles viewed) (setup.origins source) marks →
    compiles decorators source (.ofMarks decorators marks)

/-- Put an anchor into or instead of an element whose content was marked. -/
def markAnchor (setup : Setup) (node : ι) (kind : NodeKind) (directive : DirectiveRef)
    (content : Forest (Mark Factory)) : Marking ι (Forest (Mark Factory)) := do
  let instead := setup.isTemplateElement kind
  let view := Factory.ofMarks (if instead then setup.decorators kind else []) content
  Marking.lift (Work.report [.compiled content.roots.length view.binders.length])
  if instead then do
    Marking.edit (.anchorInstead node)
    pure (.leaf (.slot setup.anchor (.anchor ⟨directive, view⟩)))
  else do
    Marking.edit (.anchorInside node)
    pure (.tree (.element kind (setup.decorators kind) (.template ⟨directive, view⟩))
      (.leaf (.unbound setup.anchor)))

/-- The part of the walk that is about one tree, by the claims on its root. -/
def markTree (setup : Setup) (viewOf : DirectiveRef → ComponentSource → Work Factory) (node : ι)
    (kind : NodeKind) (below : Forest (ι × NodeKind)) : Marking ι (Forest (Mark Factory)) :=
  match kind.isElement, setup.claims kind with
  | false, _ => pure (.tree (setup.markOther kind) (below.map fun entry => .unbound entry.2))
  | true, [] => do
      let inner ← setup.mark viewOf below
      pure (.tree (.element kind (setup.decorators kind) .decorated) inner)
  | true, [.component directive source] => do
      let view ← Marking.lift (viewOf directive source)
      let inner ← setup.mark viewOf below
      pure (.tree (.element kind (setup.decorators kind) (.component ⟨directive, view⟩)) inner)
  | true, [.template directive] => do
      Marking.edit (.takeContent node)
      let content ← setup.mark viewOf below
      setup.markAnchor node kind directive content
  | true, first :: second :: _ =>
      throw (.conflictingDirectives (kind.tag?.getD "") first.directive.name
        second.directive.name)

theorem mark_cons (viewOf : DirectiveRef → ComponentSource → Work Factory) (node : ι)
    (kind : NodeKind) (below rest : Forest (ι × NodeKind)) :
    setup.mark viewOf (.cons (node, kind) below rest) =
      (do
        let head ← setup.markTree viewOf node kind below
        let tail ← setup.mark viewOf rest
        pure (head ++ tail)) := by
  rw [mark.eq_def]
  cases kind with
  | element name attributes =>
      have claims : claimsOf (setup.registry.matching name attributes) =
          setup.claims (.element name attributes) := rfl
      have element : (NodeKind.element name attributes).isElement = true := rfl
      simp only [soleClaim, claims, markTree, element]
      rcases setup.claims (.element name attributes) with _ | ⟨claim, _ | ⟨second, more⟩⟩
      · simp only [bind_assoc, pure_bind]
        rfl
      · cases claim with
        | component directive source =>
            simp only [bind_assoc, pure_bind]
            rfl
        | template directive =>
            simp only [bind_assoc, markAnchor]
            have tag : setup.isTemplateElement (.element name attributes) =
                setup.isTemplateTag name := rfl
            simp only [tag]
            cases setup.isTemplateTag name <;> simp only [pure_bind] <;> rfl
      · cases claim <;> rfl
  | fragment => rfl
  | text value => rfl
  | comment value => rfl

/-- The changes that the walk asks for, in its order. -/
def edits (setup : Setup) : Forest (ι × NodeKind) → List (Edit ι)
  | .nil => []
  | .cons (node, kind) below rest =>
      (match setup.template? kind with
        | none => edits setup below
        | some _ =>
            .takeContent node :: (edits setup below ++
              [if setup.isTemplateElement kind then .anchorInstead node
                else .anchorInside node])) ++ edits setup rest

theorem origins_tree (kind : NodeKind) (below : Forest NodeKind) :
    setup.origins (.tree kind below) =
      match setup.template? kind with
      | none => .tree (.kept kind) (setup.origins below)
      | some _ =>
          if setup.isTemplateElement kind then .leaf (.instead kind below)
          else .tree (.emptied kind below) (.leaf .inside) :=
  Forest.append_nil _

theorem origins_cons (kind : NodeKind) (below rest : Forest NodeKind) :
    setup.origins (.cons kind below rest) =
      setup.origins (.tree kind below) ++ setup.origins rest := by
  rw [origins_tree]
  rfl

theorem origins_append (first second : Forest NodeKind) :
    setup.origins (first ++ second) = setup.origins first ++ setup.origins second := by
  induction first with
  | nil => rfl
  | cons kind below rest _ induction =>
      rw [Forest.cons_append, origins_cons, origins_cons kind below rest, induction,
        Forest.append_assoc]

theorem edits_tree (node : ι) (kind : NodeKind) (below : Forest (ι × NodeKind)) :
    setup.edits (.tree (node, kind) below) =
      match setup.template? kind with
      | none => setup.edits below
      | some _ =>
          .takeContent node :: (setup.edits below ++
            [if setup.isTemplateElement kind then .anchorInstead node
              else .anchorInside node]) := by
  rw [edits, edits, List.append_nil]

theorem edits_cons (node : ι) (kind : NodeKind) (below rest : Forest (ι × NodeKind)) :
    setup.edits (.cons (node, kind) below rest) =
      setup.edits (.tree (node, kind) below) ++ setup.edits rest := by
  rw [edits_tree, edits]

theorem claims_of_not_isElement (setup : Setup) {kind : NodeKind} (leaf : kind.isElement = false) :
    setup.claims kind = [] := by
  cases kind with
  | element name attributes => cases leaf
  | _ => rfl

/-- What the walk asks of the way to component views: it is sound, and keeps what it relies on. -/
structure ViewsSound (setup : Setup) (viewed : ComponentSource → Factory → Prop)
    (keeps : Progress → Prop) (viewOf : DirectiveRef → ComponentSource → Work Factory) :
    Prop where
  preserves : ∀ kind directive source, setup.claims kind = [.component directive source] →
    Preserves keeps (viewOf directive source)
  sound : ∀ kind directive source, setup.claims kind = [.component directive source] →
    ∀ progress view next, keeps progress →
      viewOf directive source progress = .ok view next → viewed source view
  report : ∀ progress events, keeps progress → keeps { progress with events }

theorem preserves_lift {keeps : Progress → Prop} {work : Work α}
    (preserves : Preserves keeps work) :
    Preserves (fun stage : Stage ι => keeps stage.progress) (Marking.lift work) := by
  intro stage kept
  have result := preserves stage.progress kept
  rw [Marking.lift]
  cases run : work stage.progress with
  | ok value next =>
      rw [run] at result
      exact result
  | error error next =>
      rw [run] at result
      exact result

theorem lift_eq_ok {work : Work α} {stage next : Stage ι} {value : α}
    (run : Marking.lift work stage = .ok value next) :
    ∃ progress, work stage.progress = .ok value progress ∧ next = { stage with progress } := by
  rw [Marking.lift] at run
  cases worked : work stage.progress with
  | ok found progress =>
      rw [worked] at run
      cases run
      exact ⟨progress, rfl, rfl⟩
  | error error progress =>
      rw [worked] at run
      cases run

/-- The ways in which the walk over one tree succeeds, by the claims on its root. -/
inductive TreeMarked (setup : Setup) (viewOf : DirectiveRef → ComponentSource → Work Factory)
    (node : ι) (kind : NodeKind) (below : Forest (ι × NodeKind)) (stage : Stage ι) :
    Forest (Mark Factory) → Stage ι → Prop where
  | other :
      kind.isElement = false →
      TreeMarked setup viewOf node kind below stage
        (.tree (setup.markOther kind) (below.map fun entry => .unbound entry.2)) stage
  | unclaimed {content : Forest (Mark Factory)} {last : Stage ι} :
      kind.isElement = true → setup.claims kind = [] →
      setup.mark viewOf below stage = .ok content last →
      TreeMarked setup viewOf node kind below stage
        (.tree (.element kind (setup.decorators kind) .decorated) content) last
  | component {directive : DirectiveRef} {source : ComponentSource} {view : Factory}
      {progress : Progress} {content : Forest (Mark Factory)} {last : Stage ι} :
      kind.isElement = true → setup.claims kind = [.component directive source] →
      viewOf directive source stage.progress = .ok view progress →
      setup.mark viewOf below { stage with progress } = .ok content last →
      TreeMarked setup viewOf node kind below stage
        (.tree (.element kind (setup.decorators kind) (.component ⟨directive, view⟩)) content) last
  | template {directive : DirectiveRef} {content marks : Forest (Mark Factory)}
      {middle last : Stage ι} :
      kind.isElement = true → setup.claims kind = [.template directive] →
      setup.mark viewOf below { stage with edits := stage.edits ++ [.takeContent node] } =
        .ok content middle →
      setup.markAnchor node kind directive content middle = .ok marks last →
      TreeMarked setup viewOf node kind below stage marks last

theorem treeMarked {viewOf : DirectiveRef → ComponentSource → Work Factory} {node : ι}
    {kind : NodeKind} {below : Forest (ι × NodeKind)} {stage last : Stage ι}
    {marks : Forest (Mark Factory)}
    (run : setup.markTree viewOf node kind below stage = .ok marks last) :
    setup.TreeMarked viewOf node kind below stage marks last := by
  unfold markTree at run
  cases isElement : kind.isElement with
  | false =>
      rw [isElement] at run
      cases run
      exact .other isElement
  | true =>
      rw [isElement] at run
      rcases claimed : setup.claims kind with _ | ⟨claim, _ | ⟨second, more⟩⟩
      · rw [claimed] at run
        obtain ⟨content, after, visited, made⟩ := bind_eq_ok run
        cases made
        exact .unclaimed isElement claimed visited
      · rw [claimed] at run
        cases claim with
        | component directive source =>
            obtain ⟨view, between, viewing, visiting⟩ := bind_eq_ok run
            obtain ⟨content, after, visited, made⟩ := bind_eq_ok visiting
            cases made
            obtain ⟨progress, worked, rfl⟩ := lift_eq_ok viewing
            exact .component isElement claimed worked visited
        | template directive =>
            obtain ⟨_, noted, taken, visiting⟩ := bind_eq_ok run
            obtain ⟨content, after, visited, placing⟩ := bind_eq_ok visiting
            cases taken
            exact .template isElement claimed visited placing
      · rw [claimed] at run
        cases claim <;> cases run

theorem preserves_edit (keeps : Progress → Prop) (change : Edit ι) :
    Preserves (fun stage : Stage ι => keeps stage.progress) (Marking.edit change) :=
  fun _ kept => kept

section walk
variable {keeps : Progress → Prop} {viewOf : DirectiveRef → ComponentSource → Work Factory}
  (views : setup.ViewsSound viewed keeps viewOf)
include views

theorem preserves_markAnchor (node : ι) (kind : NodeKind) (directive : DirectiveRef)
    (content : Forest (Mark Factory)) :
    Preserves (fun stage : Stage ι => keeps stage.progress)
      (setup.markAnchor node kind directive content) := by
  have reports (events : List Event) :
      Preserves (fun stage : Stage ι => keeps stage.progress)
        (Marking.lift (Work.report events)) :=
    preserves_lift fun progress kept => views.report progress _ kept
  refine (reports _).bind fun _ => ?_
  split
  · exact (preserves_edit keeps _).bind fun _ => .pure _
  · exact (preserves_edit keeps _).bind fun _ => .pure _

theorem preserves_markTree (node : ι) (kind : NodeKind) {below : Forest (ι × NodeKind)}
    (inner : Preserves (fun stage : Stage ι => keeps stage.progress) (setup.mark viewOf below)) :
    Preserves (fun stage : Stage ι => keeps stage.progress)
      (setup.markTree viewOf node kind below) := by
  unfold markTree
  split
  · exact .pure _
  · exact inner.bind fun _ => .pure _
  next claimed =>
    exact (preserves_lift (views.preserves kind _ _ claimed)).bind fun _ =>
      inner.bind fun _ => .pure _
  · exact (preserves_edit keeps _).bind fun _ =>
      inner.bind fun content => preserves_markAnchor views _ _ _ content
  · exact .throw _

theorem preserves_mark (forest : Forest (ι × NodeKind)) :
    Preserves (fun stage : Stage ι => keeps stage.progress) (setup.mark viewOf forest) := by
  induction forest with
  | nil => exact .pure _
  | cons entry below rest inner outer =>
      obtain ⟨node, kind⟩ := entry
      rw [mark_cons]
      exact (preserves_markTree views node kind inner).bind fun head =>
        outer.bind fun tail => .pure _

omit views in
theorem fits_markOther {kind : NodeKind} (leaf : kind.isElement = false) :
    setup.MarkFits compiles viewed (.kept kind) (setup.markOther kind) := by
  cases kind with
  | element name attributes => cases leaf
  | text value =>
      cases bound : setup.config.interpolation.requiresBinding value with
      | true =>
          simp only [markOther, bound]
          exact .text bound
      | false =>
          simp only [markOther, bound]
          exact .unbound rfl bound
  | fragment => exact .unbound rfl rfl
  | comment value => exact .unbound rfl rfl

omit views in
theorem markAnchor_fits {node : ι} {kind : NodeKind} {directive : DirectiveRef}
    {below : Forest NodeKind} {content : Forest (Mark Factory)} {stage last : Stage ι}
    {marks : Forest (Mark Factory)} (isElement : kind.isElement = true)
    (claimed : setup.claims kind = [.template directive])
    (inside : compiles [] below (.ofMarks [] content))
    (instead : compiles (setup.decorators kind) below (.ofMarks (setup.decorators kind) content))
    (run : setup.markAnchor node kind directive content stage = .ok marks last) :
    Forest.Aligned (setup.MarkFits compiles viewed)
        (if setup.isTemplateElement kind then .leaf (.instead kind below)
          else .tree (.emptied kind below) (.leaf .inside)) marks ∧
      last.edits = stage.edits ++
        [if setup.isTemplateElement kind then .anchorInstead node else .anchorInside node] := by
  obtain ⟨_, reported, reporting, placed⟩ := bind_eq_ok run
  cases reporting
  cases tag : setup.isTemplateElement kind with
  | true =>
      simp only [tag, if_true] at placed ⊢
      cases placed
      exact ⟨.cons (.instead claimed instead) .nil .nil, rfl⟩
  | false =>
      simp only [tag] at placed ⊢
      cases placed
      exact ⟨.cons (.emptied isElement claimed inside) (.cons .inside .nil .nil) .nil, rfl⟩

theorem markTree_fits (closed : setup.Closed compiles viewed) {node : ι} {kind : NodeKind}
    {below : Forest (ι × NodeKind)}
    (bare : (below.map Prod.snd).Bare NodeKind.isElement)
    (bottom : kind.isElement = false → below.map Prod.snd = .nil)
    (inner : ∀ {stage last : Stage ι} {marks : Forest (Mark Factory)}, keeps stage.progress →
      setup.mark viewOf below stage = .ok marks last →
      Forest.Aligned (setup.MarkFits compiles viewed) (setup.origins (below.map Prod.snd)) marks ∧
        last.edits = stage.edits ++ setup.edits below)
    {stage last : Stage ι} {marks : Forest (Mark Factory)} (kept : keeps stage.progress)
    (run : setup.markTree viewOf node kind below stage = .ok marks last) :
    Forest.Aligned (setup.MarkFits compiles viewed)
        (setup.origins (.tree kind (below.map Prod.snd))) marks ∧
      last.edits = stage.edits ++ setup.edits (.tree (node, kind) below) := by
  rw [origins_tree, edits_tree]
  cases treeMarked run with
  | other leaf =>
      have unclaimed := setup.claims_of_not_isElement leaf
      simp only [template?, unclaimed, bottom leaf]
      have empty : below = .nil := by
        cases below with
        | nil => rfl
        | cons entry inside beside => cases bottom leaf
      subst empty
      exact ⟨.cons (fits_markOther leaf) .nil .nil, (List.append_nil _).symm⟩
  | unclaimed isElement claimed visited =>
      obtain ⟨aligned, edited⟩ := inner kept visited
      simp only [template?, claimed]
      exact ⟨.cons (.decorated isElement claimed) aligned .nil, edited⟩
  | component isElement claimed worked visited =>
      have still := (views.preserves kind _ _ claimed).ok kept worked
      have fits := views.sound kind _ _ claimed _ _ _ kept worked
      obtain ⟨aligned, edited⟩ := inner still visited
      simp only [template?, claimed]
      exact ⟨.cons (.component isElement claimed fits) aligned .nil, edited⟩
  | template isElement claimed visited placed =>
      obtain ⟨aligned, edited⟩ := inner (by exact kept) visited
      obtain ⟨fits, noted⟩ := markAnchor_fits isElement claimed
        (closed _ _ _ bare aligned) (closed _ _ _ bare aligned) placed
      simp only [template?, claimed]
      refine ⟨fits, ?_⟩
      rw [noted, edited, List.append_assoc, List.append_assoc]
      rfl

/-- Where the walk succeeds, the marks are those of the template that the source becomes, and the
changes are those of the source. -/
theorem mark_fits (closed : setup.Closed compiles viewed)
    {forest : Forest (ι × NodeKind)} (bare : (forest.map Prod.snd).Bare NodeKind.isElement)
    {stage last : Stage ι} {marks : Forest (Mark Factory)} (kept : keeps stage.progress)
    (run : setup.mark viewOf forest stage = .ok marks last) :
    Forest.Aligned (setup.MarkFits compiles viewed) (setup.origins (forest.map Prod.snd)) marks ∧
      last.edits = stage.edits ++ setup.edits forest := by
  induction forest generalizing stage last marks with
  | nil =>
      cases run
      exact ⟨.nil, (List.append_nil _).symm⟩
  | cons entry below rest inner outer =>
      obtain ⟨node, kind⟩ := entry
      obtain ⟨bottom, bareBelow, bareRest⟩ := bare
      rw [mark_cons] at run
      obtain ⟨head, middle, first, following⟩ := bind_eq_ok run
      obtain ⟨tail, final, second, made⟩ := bind_eq_ok following
      cases made
      -- The first tree keeps what the walk relies on, so the rest of the row starts from there.
      obtain ⟨headFits, headEdits⟩ :=
        markTree_fits views closed bareBelow bottom (inner bareBelow) kept first
      have still : keeps middle.progress :=
        (preserves_markTree views node kind (preserves_mark views below)).ok kept first
      obtain ⟨tailFits, tailEdits⟩ := outer bareRest still second
      rw [Forest.map, origins_cons, edits_cons, tailEdits, headEdits, List.append_assoc]
      exact ⟨headFits.append tailFits, rfl⟩

end walk

end ViewTemplates.Setup
