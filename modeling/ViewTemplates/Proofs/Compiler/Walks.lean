import ViewTemplates.Proofs.Compiler.InPlace

/-!
The compilation of nodes, whatever is below them. What it changes and what it marks are those of the
part of their forest that the compiler visits.
-/

namespace ViewTemplates.Compiler

open Document

variable {compiler : Compiler} {viewed : ComponentSource → Factory → Prop}
  {keeps : Progress → Prop}

/-- The marks of a source that was compiled in place, as far as the compiler visits it. -/
structure Walked (compiler : Compiler) (viewed : ComponentSource → Factory → Prop)
    (doc next : Document) (source : Forest (NodeId × NodeKind)) (places : List NodeId)
    (marks : Forest (Mark Factory)) (anchorOf : NodeId → NodeId) : Prop where
  relaid : compiler.setup.Relaid doc next source places anchorOf
  aligned : Forest.Aligned (compiler.setup.MarkFits (fun _ _ _ => True) viewed)
    (compiler.setup.origins (source.reached.map Prod.snd)) (marks.pruned Mark.isElement)

theorem isReplaced_pruned (inner : Mark Factory → Bool) (marks : Forest (Mark Factory)) :
    isReplaced (marks.pruned inner) = isReplaced marks := by
  cases marks with
  | nil => rfl
  | cons mark below rest =>
      cases mark with
      | slot kind slotKind => cases slotKind <;> rfl
      | _ => rfl

section walk
variable (views : compiler.setup.ViewsSound viewed keeps compiler.viewOf)
include views

/-- A node that was compiled has been changed as its walk asks for. -/
theorem compileNode_visits {site last : Site}
    {node place : NodeId} {marks : Forest (Mark Factory)} (kept : keeps site.progress)
    (run : compiler.compileNode node site = .ok (place, marks) last) :
    last.doc = compiler.setup.edited site.doc
        (compiler.setup.edits (site.doc.forest [node]).reached) ∧
      place = (if isReplaced marks then last.doc.size - 1 else node) ∧
      Forest.Aligned (compiler.setup.MarkFits (fun _ _ _ => True) viewed)
        (compiler.setup.origins ((site.doc.forest [node]).reached.map Prod.snd))
        (marks.pruned Mark.isElement) ∧
      keeps last.progress := by
  rw [compileNode] at run
  split at run
  · cases run
  next found stage marked =>
    obtain ⟨aligned, edits⟩ := Setup.mark_visits views (by exact kept) marked
    rw [List.nil_append] at edits
    cases run
    rw [edits]
    exact ⟨rfl, rfl, aligned, (Setup.preserves_mark views _).ok (by exact kept) marked⟩

theorem walked_of_compileNode {site last : Site} {node place : NodeId} {kind : NodeKind}
    {below : Forest (NodeId × NodeKind)} {marks : Forest (Mark Factory)}
    (shows : Setup.Shows site.doc (.tree (node, kind) below)) (kept : keeps site.progress)
    (run : compiler.compileNode node site = .ok (place, marks) last) :
    ∃ anchorOf, compiler.Walked viewed site.doc last.doc (.tree (node, kind) below) [place] marks
      anchorOf ∧ keeps last.progress := by
  have source : site.doc.forest [node] = .tree (node, kind) below :=
    shows.wellFormed.forest_eq shows.holds
  obtain ⟨edited, placed, aligned, still⟩ := compileNode_visits views kept run
  rw [source] at edited aligned
  obtain ⟨anchorOf, relaid⟩ := compiler.setup.relaid_tree shows.listed
  have replaced : isReplaced (marks.pruned Mark.isElement) = compiler.setup.isReplaced kind :=
    isReplaced_eq aligned
  rw [← isReplaced_pruned Mark.isElement, replaced] at placed
  rw [← edited, ← placed] at relaid
  exact ⟨anchorOf, ⟨relaid, aligned⟩, still⟩

theorem walked_of_compileEach {site last : Site} {source : Forest (NodeId × NodeKind)}
    {places : List NodeId} {marks : Forest (Mark Factory)} (shows : Setup.Shows site.doc source)
    (kept : keeps site.progress)
    (run : compiler.compileEach source.tops site = .ok (places, marks) last) :
    ∃ anchorOf, compiler.Walked viewed site.doc last.doc source places marks anchorOf := by
  induction source generalizing site places marks with
  | nil =>
      cases run
      exact ⟨id, .nil shows.wellFormed, .nil⟩
  | cons entry below rest _ induction =>
      obtain ⟨⟨place, head⟩, middle, first, following⟩ := bind_eq_ok run
      obtain ⟨⟨later, tail⟩, final, second, made⟩ := bind_eq_ok following
      cases made
      rw [← Forest.tree_append] at shows ⊢
      obtain ⟨anchorOf, walked, still⟩ := walked_of_compileNode views shows.front kept first
      obtain ⟨anchorOfRest, walkedRest⟩ := induction (walked.relaid.shows_rest shows) still second
      obtain ⟨anchors, relaid⟩ := walked.relaid.append walkedRest.relaid shows.listed
      refine ⟨anchors, relaid, ?_⟩
      rw [Forest.reached_append, Forest.pruned_append, Forest.map_append, Setup.origins_append]
      exact walked.aligned.append walkedRest.aligned

end walk

end ViewTemplates.Compiler
