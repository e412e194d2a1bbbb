import ViewTemplates.Proofs.Compiler.Binders
import ViewTemplates.Proofs.Document.Subtree

/-!
The compiler's walk over any source. It does not look below nodes that are no elements: its marks
and its changes are those of the source without what lies there. Where it fails, it has stopped at
an element, and the changes are those for what comes before that element.
-/

namespace ViewTemplates

namespace Forest

/-- The forest without what lies below values that are no inner ones. -/
def pruned (inner : α → Bool) : Forest α → Forest α
  | .nil => .nil
  | .cons value below rest =>
      .cons value
        (match inner value with
          | true => below.pruned inner
          | false => .nil)
        (rest.pruned inner)

variable {inner : α → Bool}

theorem pruned_append (first second : Forest α) :
    (first ++ second).pruned inner = first.pruned inner ++ second.pruned inner := by
  induction first with
  | nil => rfl
  | cons value below rest _ induction => rw [cons_append, pruned, induction, pruned, cons_append]

theorem bare_pruned (forest : Forest α) : (forest.pruned inner).Bare inner := by
  induction forest with
  | nil => trivial
  | cons value below rest first second =>
      rw [pruned]
      cases inside : inner value with
      | true => exact ⟨fun leaf => absurd inside (by simp [leaf]), first, second⟩
      | false => exact ⟨fun _ => rfl, trivial, second⟩

theorem preorder_pruned_sublist (forest : Forest α) :
    (forest.pruned inner).preorder.Sublist forest.preorder := by
  induction forest with
  | nil => exact .slnil
  | cons value below rest first second =>
      rw [pruned, preorder, preorder]
      apply List.Sublist.cons_cons
      refine List.Sublist.append ?_ second
      cases inner value with
      | true => exact first
      | false => exact List.nil_sublist _

theorem pruned_of_bare {forest : Forest α} (bare : forest.Bare inner) :
    forest.pruned inner = forest := by
  induction forest with
  | nil => rfl
  | cons value below rest first second =>
      obtain ⟨bottom, bareBelow, bareRest⟩ := bare
      rw [pruned, second bareRest]
      cases inside : inner value with
      | true => rw [first bareBelow]
      | false => rw [bottom inside]

/-- The values that pruning drops. -/
def veiled (inner : α → Bool) : Forest α → List α
  | .nil => []
  | .cons value below rest =>
      (match inner value with
        | true => below.veiled inner
        | false => below.preorder) ++ rest.veiled inner

theorem perm_pruned (forest : Forest α) :
    forest.preorder.Perm ((forest.pruned inner).preorder ++ forest.veiled inner) := by
  induction forest with
  | nil => exact .refl _
  | cons value below rest first second =>
      rw [pruned, veiled, preorder, preorder, List.cons_append, List.append_assoc]
      apply List.Perm.cons
      cases inner value with
      | true =>
          refine (first.append second).trans ?_
          rw [List.append_assoc]
          exact (List.perm_append_comm_assoc _ _ _).append_left _
      | false => exact (second.append_left _).trans (List.perm_append_comm_assoc _ _ _)

theorem Aligned.bare {related : α → β → Prop} {left : Forest α} {right : Forest β}
    (aligned : Aligned related left right) {other : β → Bool}
    (same : ∀ one second, related one second → other second = inner one)
    (bare : left.Bare inner) : right.Bare other := by
  induction aligned with
  | nil => trivial
  | cons head below _ first second =>
      refine ⟨fun leaf => ?_, first bare.2.1, second bare.2.2⟩
      have empty := bare.1 ((same _ _ head).symm.trans leaf)
      rw [empty] at below
      cases below
      rfl

/-- The part of a source that the compiler visits. -/
abbrev reached (source : Forest (ι × NodeKind)) : Forest (ι × NodeKind) :=
  source.pruned fun entry => entry.2.isElement

/-- The part that it does not visit. -/
abbrev unreached (source : Forest (ι × NodeKind)) : List (ι × NodeKind) :=
  source.veiled fun entry => entry.2.isElement

theorem reached_append (first second : Forest (ι × NodeKind)) :
    (first ++ second).reached = first.reached ++ second.reached := pruned_append first second

theorem bare_reached (source : Forest (ι × NodeKind)) :
    (source.reached.map Prod.snd).Bare NodeKind.isElement :=
  bare_map.mpr (bare_pruned source)

theorem reached_of_bare {source : Forest (ι × NodeKind)}
    (bare : (source.map Prod.snd).Bare NodeKind.isElement) : source.reached = source :=
  pruned_of_bare (bare_map.mp bare)

theorem ids_reached_sublist (source : Forest (NodeId × NodeKind)) :
    source.reached.ids.Sublist source.ids :=
  (preorder_pruned_sublist source).map Prod.fst

/-- The nodes that hold a wanted value, in document order. -/
def idsOf (wanted : α → Bool) (forest : Forest (NodeId × α)) : List NodeId :=
  (forest.preorder.filter fun entry => wanted entry.2).map Prod.fst

theorem idsOf_append {wanted : α → Bool} (first second : Forest (NodeId × α)) :
    (first ++ second).idsOf wanted = first.idsOf wanted ++ second.idsOf wanted := by
  simp [idsOf]

theorem idsOf_tree {wanted : α → Bool} (entry : NodeId × α) (below : Forest (NodeId × α)) :
    (tree entry below).idsOf wanted =
      if wanted entry.2 then entry.1 :: below.idsOf wanted else below.idsOf wanted := by
  simp only [idsOf, preorder, List.append_nil, List.filter_cons]
  split <;> rfl

theorem idsOf_sublist (wanted : α → Bool) (forest : Forest (NodeId × α)) :
    (forest.idsOf wanted).Sublist forest.ids := List.filter_sublist.map Prod.fst

theorem mem_ids_of_mem_idsOf {wanted : α → Bool} {forest : Forest (NodeId × α)} {node : NodeId}
    (member : node ∈ forest.idsOf wanted) : node ∈ forest.ids :=
  (forest.idsOf_sublist wanted).subset member

end Forest

namespace Mark

def isElement : Mark φ → Bool
  | element .. => true
  | _ => false

theorem slotsFrom_pruned (marks : Forest (Mark φ)) (position : Nat) :
    slotsFrom position (marks.pruned isElement) = slotsFrom position marks := by
  induction marks generalizing position with
  | nil => rfl
  | cons mark below rest _ induction =>
      rw [Forest.pruned]
      cases mark <;> simp only [slotsFrom, induction]

theorem bindersFrom_pruned (marks : Forest (Mark φ)) (level : Nat) :
    bindersFrom level (marks.pruned isElement) = bindersFrom level marks := by
  induction marks generalizing level with
  | nil => rfl
  | cons mark below rest first second =>
      rw [Forest.pruned]
      cases mark with
      | element => simp only [isElement, bindersFrom, slotsFrom_pruned, first, second]
      | slot => simp only [bindersFrom, second]
      | unbound => simp only [bindersFrom, second]

theorem binders_pruned (decorators : List DirectiveRef) (marks : Forest (Mark φ)) :
    binders decorators (marks.pruned isElement) = binders decorators marks := by
  rw [binders, slotsFrom_pruned, bindersFrom_pruned, binders]

end Mark

namespace Setup

variable {setup : Setup} {compiles : List DirectiveRef → Forest NodeKind → Factory → Prop}
  {viewed : ComponentSource → Factory → Prop} {keeps : Progress → Prop}
  {viewOf : DirectiveRef → ComponentSource → Work Factory}

theorem MarkFits.isElement_eq {origin : Origin} {mark : Mark Factory}
    (fits : setup.MarkFits compiles viewed origin mark) : mark.isElement = origin.isElement := by
  cases fits with
  | decorated isElement => exact isElement.symm
  | component isElement => exact isElement.symm
  | emptied isElement => exact isElement.symm
  | inside => rfl
  | instead => rfl
  | text => rfl
  | unbound leaf => exact leaf.symm

theorem pruned_of_aligned {origins : Forest Origin} {marks : Forest (Mark Factory)}
    (aligned : Forest.Aligned (setup.MarkFits compiles viewed) origins marks)
    (bare : origins.Bare Origin.isElement) : marks.pruned Mark.isElement = marks :=
  Forest.pruned_of_bare (aligned.bare (fun _ _ fits => fits.isElement_eq) bare)

/-! Walks that succeed. -/

/-- The marks and the changes of a walk are those of the part of the source that it visits. -/
structure Visited (setup : Setup) (viewed : ComponentSource → Factory → Prop)
    (source : Forest (ι × NodeKind)) (stage last : Stage ι) (marks : Forest (Mark Factory)) :
    Prop where
  aligned : Forest.Aligned (setup.MarkFits (fun _ _ _ => True) viewed)
    (setup.origins (source.reached.map Prod.snd)) (marks.pruned Mark.isElement)
  edits : last.edits = stage.edits ++ setup.edits source.reached

/-- Is the element claimed by a template directive? -/
def isClaimed (setup : Setup) (kind : NodeKind) : Bool := (setup.template? kind).isSome

theorem reached_tree (node : ι) (kind : NodeKind) (below : Forest (ι × NodeKind)) :
    (Forest.tree (node, kind) below).reached =
      .tree (node, kind)
        (match kind.isElement with
          | true => below.reached
          | false => .nil) := rfl

theorem reached_cons (node : ι) (kind : NodeKind) (below rest : Forest (ι × NodeKind)) :
    (Forest.cons (node, kind) below rest).reached =
      (Forest.tree (node, kind) below).reached ++ rest.reached :=
  Forest.pruned_append (.tree (node, kind) below) rest

theorem edits_append (first second : Forest (ι × NodeKind)) :
    setup.edits (first ++ second) = setup.edits first ++ setup.edits second := by
  induction first with
  | nil => rfl
  | cons entry below rest _ induction =>
      obtain ⟨node, kind⟩ := entry
      rw [Forest.cons_append, edits_cons, edits_cons node kind below rest, induction,
        List.append_assoc]

/-- Any way to component views will do where nothing is asked of the views. -/
theorem viewsSound_trivial (setup : Setup)
    (viewOf : DirectiveRef → ComponentSource → Work Factory) :
    setup.ViewsSound (fun _ _ => True) (fun _ => True) viewOf where
  preserves := fun _ directive source _ => .any (viewOf directive source)
  sound := fun _ _ _ _ _ _ _ _ _ => trivial
  report := fun _ _ _ => trivial

section walk
variable (views : setup.ViewsSound viewed keeps viewOf)
include views

theorem markTree_visits {node : ι} {kind : NodeKind} {below : Forest (ι × NodeKind)}
    (inner : ∀ {stage last : Stage ι} {content : Forest (Mark Factory)}, keeps stage.progress →
      setup.mark viewOf below stage = .ok content last →
      setup.Visited viewed below stage last content)
    {stage last : Stage ι} {marks : Forest (Mark Factory)} (kept : keeps stage.progress)
    (run : setup.markTree viewOf node kind below stage = .ok marks last) :
    setup.Visited viewed (.tree (node, kind) below) stage last marks := by
  have made : setup.origins ((Forest.tree (node, kind) below).reached.map Prod.snd) =
      setup.origins (.tree kind ((match kind.isElement with
        | true => below.reached
        | false => .nil).map Prod.snd)) := rfl
  cases treeMarked run with
  | other leaf =>
      have unclaimed := setup.claims_of_not_isElement leaf
      have fits : setup.MarkFits (fun _ _ _ => True) viewed (.kept kind) (setup.markOther kind) :=
        fits_markOther leaf
      have other : (setup.markOther kind).isElement = false := fits.isElement_eq.trans leaf
      constructor
      case aligned =>
        rw [made, leaf, origins_tree, template?, unclaimed, Forest.pruned, other]
        exact .cons fits .nil .nil
      case edits =>
        rw [reached_tree, leaf, edits_tree, template?, unclaimed]
        exact (List.append_nil _).symm
  | unclaimed isElement claimed visited =>
      obtain ⟨aligned, edits⟩ := inner kept visited
      constructor
      case aligned =>
        rw [made, isElement, origins_tree, template?, claimed]
        exact .cons (.decorated isElement claimed) aligned .nil
      case edits =>
        rw [reached_tree, isElement, edits_tree, template?, claimed]
        exact edits
  | component isElement claimed worked visited =>
      have still := (views.preserves kind _ _ claimed).ok kept worked
      have fits := views.sound kind _ _ claimed _ _ _ kept worked
      obtain ⟨aligned, edits⟩ := inner still visited
      constructor
      case aligned =>
        rw [made, isElement, origins_tree, template?, claimed]
        exact .cons (.component isElement claimed fits) aligned .nil
      case edits =>
        rw [reached_tree, isElement, edits_tree, template?, claimed]
        exact edits
  | template isElement claimed visited placed =>
      obtain ⟨-, edits⟩ := inner (by exact kept) visited
      have placing : Forest.Aligned (setup.MarkFits (fun _ _ _ => True) viewed)
            (if setup.isTemplateElement kind then
              .leaf (.instead kind (below.reached.map Prod.snd))
            else .tree (.emptied kind (below.reached.map Prod.snd)) (.leaf .inside)) marks ∧ _ :=
        markAnchor_fits isElement claimed trivial trivial placed
      obtain ⟨fits, noted⟩ := placing
      have origin : setup.origins ((Forest.tree (node, kind) below).reached.map Prod.snd) =
          if setup.isTemplateElement kind then
            .leaf (.instead kind (below.reached.map Prod.snd))
          else .tree (.emptied kind (below.reached.map Prod.snd)) (.leaf .inside) := by
        rw [made, isElement, origins_tree, template?, claimed]
      rw [← origin] at fits
      constructor
      case aligned =>
        rw [pruned_of_aligned fits (setup.bare_origins (Forest.bare_reached _))]
        exact fits
      case edits =>
        rw [noted, edits, reached_tree, isElement, edits_tree, template?, claimed]
        simp

theorem mark_visits {source : Forest (ι × NodeKind)} {stage last : Stage ι}
    {marks : Forest (Mark Factory)} (kept : keeps stage.progress)
    (run : setup.mark viewOf source stage = .ok marks last) :
    setup.Visited viewed source stage last marks := by
  induction source generalizing stage last marks with
  | nil =>
      cases run
      exact ⟨.nil, (List.append_nil _).symm⟩
  | cons entry below rest inner outer =>
      obtain ⟨node, kind⟩ := entry
      rw [mark_cons] at run
      obtain ⟨head, middle, first, following⟩ := bind_eq_ok run
      obtain ⟨tail, final, second, made⟩ := bind_eq_ok following
      cases made
      have still : keeps middle.progress :=
        (preserves_markTree views node kind (preserves_mark views below)).ok kept first
      obtain ⟨aligned, edits⟩ := markTree_visits views inner kept first
      obtain ⟨alignedRest, editsRest⟩ := outer still second
      constructor
      case aligned =>
        rw [reached_cons, Forest.map_append, origins_append, Forest.pruned_append]
        exact aligned.append alignedRest
      case edits => rw [reached_cons, edits_append, editsRest, edits, List.append_assoc]

end walk

/-! Walks that fail. -/

/-- Why the walk stops at an element: the claims on it conflict, or its component has no view. -/
inductive Fails (setup : Setup) (viewOf : DirectiveRef → ComponentSource → Work Factory) :
    NodeKind → Error → Prop where
  | conflict {kind : NodeKind} {first second : Claim} {more : List Claim} :
      setup.claims kind = first :: second :: more →
      Fails setup viewOf kind (.conflictingDirectives (kind.tag?.getD "") first.directive.name
        second.directive.name)
  | view {kind : NodeKind} {directive : DirectiveRef} {source : ComponentSource}
      {progress last : Progress} {error : Error} :
      setup.claims kind = [.component directive source] →
      viewOf directive source progress = .error error last → Fails setup viewOf kind error

/-- The ways in which the walk over one tree fails. -/
inductive TreeHalted (setup : Setup) (viewOf : DirectiveRef → ComponentSource → Work Factory)
    (node : ι) (kind : NodeKind) (below : Forest (ι × NodeKind)) (stage last : Stage ι)
    (error : Error) : Prop where
  | here : setup.Fails viewOf kind error → last.edits = stage.edits →
      TreeHalted setup viewOf node kind below stage last error
  | inside {first : Stage ι} :
      setup.template? kind = none → first.edits = stage.edits →
      setup.mark viewOf below first = .error error last →
      TreeHalted setup viewOf node kind below stage last error
  | opened {directive : DirectiveRef} {first : Stage ι} :
      setup.template? kind = some directive →
      first.edits = stage.edits ++ [.takeContent node] →
      setup.mark viewOf below first = .error error last →
      TreeHalted setup viewOf node kind below stage last error

theorem lift_eq_error {work : Work α} {stage last : Stage ι} {error : Error}
    (run : Marking.lift work stage = .error error last) :
    ∃ progress, work stage.progress = .error error progress ∧ last.edits = stage.edits := by
  rw [Marking.lift] at run
  cases worked : work stage.progress with
  | ok found progress =>
      rw [worked] at run
      cases run
  | error found progress =>
      rw [worked] at run
      cases run
      exact ⟨progress, rfl, rfl⟩

theorem markAnchor_ne_error {node : ι} {kind : NodeKind} {directive : DirectiveRef}
    {content : Forest (Mark Factory)} {stage last : Stage ι} {error : Error} :
    setup.markAnchor node kind directive content stage ≠ .error error last := by
  intro run
  rw [markAnchor] at run
  cases tag : setup.isTemplateElement kind with
  | true =>
      rw [tag] at run
      cases run
  | false =>
      rw [tag] at run
      cases run

theorem treeHalted {node : ι} {kind : NodeKind} {below : Forest (ι × NodeKind)}
    {stage last : Stage ι} {error : Error}
    (run : setup.markTree viewOf node kind below stage = .error error last) :
    setup.TreeHalted viewOf node kind below stage last error := by
  unfold markTree at run
  cases isElement : kind.isElement with
  | false =>
      rw [isElement] at run
      cases run
  | true =>
      rw [isElement] at run
      rcases claimed : setup.claims kind with _ | ⟨claim, _ | ⟨second, more⟩⟩
      · rw [claimed] at run
        rcases bind_eq_error run with visiting | ⟨content, after, -, made⟩
        · exact .inside (by rw [template?, claimed]) rfl visiting
        · cases made
      · rw [claimed] at run
        cases claim with
        | component directive source =>
            rcases bind_eq_error run with viewing | ⟨view, between, viewing, following⟩
            · obtain ⟨progress, worked, same⟩ := lift_eq_error viewing
              exact .here (.view claimed worked) same
            · obtain ⟨progress, -, rfl⟩ := lift_eq_ok viewing
              rcases bind_eq_error following with visiting | ⟨content, after, -, made⟩
              · refine .inside (by rw [template?, claimed]) ?_ visiting
                rfl
              · cases made
        | template directive =>
            rcases bind_eq_error run with noting | ⟨_, noted, noting, following⟩
            · cases noting
            · cases noting
              rcases bind_eq_error following with visiting | ⟨content, after, -, placing⟩
              · refine .opened (by rw [template?, claimed]) ?_ visiting
                rfl
              · exact absurd placing markAnchor_ne_error
      · rw [claimed] at run
        cases claim <;> cases run <;> exact .here (.conflict claimed) rfl

end Setup

end ViewTemplates
