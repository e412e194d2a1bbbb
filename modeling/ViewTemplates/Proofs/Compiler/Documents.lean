import ViewTemplates.Compiler.Extraction
import ViewTemplates.Proofs.Compiler.Marking
import ViewTemplates.Proofs.Document.Operations

/-!
Compilation keeps documents well formed, whatever nodes it is given and whether it succeeds or
fails: every change is one to a node that was there before.
-/

namespace ViewTemplates

def Edit.node : Edit ι → ι
  | takeContent node | anchorInside node | anchorInstead node => node

section edits
variable {doc : Document} (wellFormed : doc.WellFormed) (anchor : NodeKind)
include wellFormed

theorem Edit.wellFormed_apply {edit : Edit NodeId} (used : edit.node < doc.size) :
    (edit.apply anchor doc).WellFormed ∧ doc.size ≤ (edit.apply anchor doc).size := by
  have created := wellFormed.create anchor
  have grown : doc.size ≤ (doc.create anchor).size := by
    rw [Document.size_create]
    exact Nat.le_succ _
  have fresh : doc.size < (doc.create anchor).size := by
    rw [Document.size_create]
    exact Nat.lt_succ_self _
  cases edit with
  | takeContent node =>
      exact ⟨wellFormed.takeChildren node, Nat.le_of_eq (Document.size_takeChildren _).symm⟩
  | anchorInside node =>
      simp only [Edit.apply]
      split
      next inserted =>
        exact ⟨created.insertBefore fresh (Nat.lt_of_lt_of_le used grown) inserted,
          (Document.size_insertBefore inserted).symm ▸ grown⟩
      next => exact ⟨created, grown⟩
  | anchorInstead node =>
      simp only [Edit.apply]
      split
      next => exact ⟨created, grown⟩
      next attached =>
        split
        next replaced =>
          exact ⟨created.replaceChild fresh (created.parent_lt_size attached) replaced,
            (Document.size_replaceChild replaced).symm ▸ grown⟩
        next => exact ⟨created, grown⟩

theorem Edit.wellFormed_foldl {edits : List (Edit NodeId)}
    (used : ∀ edit ∈ edits, edit.node < doc.size) :
    (edits.foldl (Edit.apply anchor) doc).WellFormed ∧
      doc.size ≤ (edits.foldl (Edit.apply anchor) doc).size := by
  induction edits generalizing doc with
  | nil => exact ⟨wellFormed, Nat.le_refl _⟩
  | cons edit rest induction =>
      obtain ⟨changed, grown⟩ :=
        Edit.wellFormed_apply wellFormed anchor (used edit List.mem_cons_self)
      obtain ⟨last, further⟩ := induction changed fun other member =>
        Nat.lt_of_lt_of_le (used other (List.mem_cons_of_mem _ member)) grown
      exact ⟨last, Nat.le_trans grown further⟩

end edits

namespace Setup

variable {setup : Setup} {viewOf : DirectiveRef → ComponentSource → Work Factory}
  {allowed : ι → Prop}

/-- All changes noted so far are changes to these nodes. -/
def EditsWithin (allowed : ι → Prop) (stage : Stage ι) : Prop :=
  ∀ edit ∈ stage.edits, allowed edit.node

theorem editsWithin_lift (work : Work α) :
    Preserves (EditsWithin allowed) (Marking.lift work) := by
  intro stage kept
  rw [Marking.lift]
  cases work stage.progress <;> exact kept

theorem editsWithin_edit {edit : Edit ι} (inside : allowed edit.node) :
    Preserves (EditsWithin allowed) (Marking.edit edit) := by
  intro stage kept other member
  rcases List.mem_append.mp member with earlier | last
  · exact kept other earlier
  · rw [List.mem_singleton.mp last]
    exact inside

theorem editsWithin_markTree {node : ι} (inside : allowed node) (kind : NodeKind)
    {below : Forest (ι × NodeKind)}
    (inner : Preserves (EditsWithin allowed) (setup.mark viewOf below)) :
    Preserves (EditsWithin allowed) (setup.markTree viewOf node kind below) := by
  unfold markTree
  split
  · exact .pure _
  · exact inner.bind fun _ => .pure _
  · exact (editsWithin_lift _).bind fun _ => inner.bind fun _ => .pure _
  · refine (editsWithin_edit inside).bind fun _ => inner.bind fun content =>
      (editsWithin_lift _).bind fun _ => ?_
    split
    · exact (editsWithin_edit inside).bind fun _ => .pure _
    · exact (editsWithin_edit inside).bind fun _ => .pure _
  · exact .throw _

/-- The walk only asks for changes to the nodes that it is given. -/
theorem editsWithin_mark {forest : Forest (ι × NodeKind)}
    (inside : ∀ entry ∈ forest.preorder, allowed entry.1) :
    Preserves (EditsWithin allowed) (setup.mark viewOf forest) := by
  induction forest with
  | nil => exact .pure _
  | cons entry below rest inner outer =>
      obtain ⟨node, kind⟩ := entry
      obtain ⟨here, insideBelow, insideRest⟩ := Forest.forall_mem_preorder_cons.mp inside
      rw [mark_cons]
      exact (editsWithin_markTree here kind (inner insideBelow)).bind fun _ =>
        (outer insideRest).bind fun _ => .pure _

end Setup

namespace Compiler

variable {compiler : Compiler} {used : Nat}

/-- The document is well formed, and has at least as many nodes as it had. -/
def SiteSound (used : Nat) (site : Site) : Prop := site.doc.WellFormed ∧ used ≤ site.doc.size

theorem siteSound_compileNode {node : NodeId} (bound : node < used) :
    Preserves (SiteSound used) (compiler.compileNode node) := by
  intro site sound
  obtain ⟨wellFormed, enough⟩ := sound
  obtain ⟨holds, tops⟩ := wellFormed.holds_forest [node]
  have known : ∀ entry ∈ (site.doc.forest [node]).preorder, entry.1 < site.doc.size := by
    intro entry member
    refine holds.ids_lt_size wellFormed ?_ entry.1 (List.mem_map_of_mem member)
    intro top isTop
    rw [tops] at isTop
    rw [List.mem_singleton.mp isTop]
    exact Nat.lt_of_lt_of_le bound enough
  have marking : Preserves (Setup.EditsWithin (· < site.doc.size))
      (compiler.setup.mark compiler.viewOf (site.doc.forest [node])) :=
    Setup.editsWithin_mark known
  have edits := marking ⟨site.progress, []⟩ nofun
  have changed {stage : Stage NodeId}
      (within : Setup.EditsWithin (· < site.doc.size) stage) :
      SiteSound used ⟨stage.progress,
        stage.edits.foldl (Edit.apply compiler.setup.anchor) site.doc⟩ := by
    obtain ⟨sound, grown⟩ := Edit.wellFormed_foldl wellFormed compiler.setup.anchor within
    exact ⟨sound, Nat.le_trans enough grown⟩
  rw [compileNode]
  cases run : compiler.setup.mark compiler.viewOf (site.doc.forest [node])
      ⟨site.progress, []⟩ with
  | ok marks stage =>
      rw [run] at edits
      exact changed edits
  | error error stage =>
      rw [run] at edits
      exact changed edits

theorem siteSound_compileNodes {nodes : List NodeId} (bound : ∀ node ∈ nodes, node < used) :
    Preserves (SiteSound used) (compiler.compileNodes nodes) := by
  have each : Preserves (SiteSound used) (compiler.compileEach nodes) := by
    induction nodes with
    | nil => exact .pure _
    | cons node rest induction =>
        obtain ⟨here, later⟩ := List.forall_mem_cons.mp bound
        exact (siteSound_compileNode here).bind fun _ =>
          (induction later).bind fun _ => .pure _
  refine each.bind fun _ => ?_
  intro site sound
  exact sound

theorem wellFormed_onDocument {work : EStateM Error Site α} {doc : Document}
    (preserves : Preserves (SiteSound doc.size) work) (wellFormed : doc.WellFormed) :
    (compiler.onDocument doc work).2.WellFormed := by
  have result := preserves ⟨compiler.start, doc⟩ ⟨wellFormed, Nat.le_refl _⟩
  rw [onDocument]
  cases run : work ⟨compiler.start, doc⟩ with
  | ok value site =>
      rw [run] at result
      exact result.1
  | error error site =>
      rw [run] at result
      exact result.1

section compile
variable {doc : Document} (wellFormed : doc.WellFormed) {nodes : List NodeId}
  (bound : ∀ node ∈ nodes, node < doc.size)
include wellFormed bound

theorem wellFormed_compile : (compiler.compile doc nodes).2.WellFormed :=
  wellFormed_onDocument (siteSound_compileNodes bound) wellFormed

theorem wellFormed_compileFactory : (compiler.compileFactory doc nodes).2.WellFormed := by
  refine wellFormed_onDocument ((siteSound_compileNodes bound).bind fun _ => ?_) wellFormed
  intro site sound
  exact sound

end compile

end Compiler

end ViewTemplates
