import ViewTemplates.Proofs.Document.Operations
import ViewTemplates.Proofs.Outlet.Calls

/-!
Calls on an outlet keep the document well formed, whatever the outlet holds, and whether they
succeed or fail between two insertions.
-/

namespace ViewTemplates

/-- The document is well formed and has this many nodes. -/
def OutletState.Sound (size : Nat) (state : OutletState) : Prop :=
  state.doc.WellFormed ∧ state.doc.size = size

namespace Outlet

variable {keeps : OutletState → Prop} {size : Nat} {view : View}

theorem preserves_checkReference (view reference : View) :
    Preserves keeps (checkReference view reference) := by
  intro state kept
  rw [checkReference_eq]
  split_ifs
  · exact kept
  · exact kept

theorem preserves_checkInsertable (view : View) : Preserves keeps (checkInsertable view) := by
  intro state kept
  rw [checkInsertable, get_bind]
  cases state.doc.parent? state.outlet.anchor with
  | none => exact kept
  | some parent =>
      simp only
      split_ifs
      · exact kept
      · exact kept
      · exact kept

theorem sound_detach (view : View) : Preserves (OutletState.Sound size) (detach view) := by
  intro state sound
  rw [detach, get_bind]
  cases state.outlet.links.get? view.id with
  | none => exact sound
  | some link =>
      obtain ⟨wellFormed, same⟩ := sound
      exact ⟨wellFormed.foldl_remove link.nodes, by
        rw [Document.size_foldl_remove]
        exact same⟩

/-- A row of nodes may fail to be placed at any of them; those before it stay where they are. -/
theorem sound_insertNodes {parent : NodeId} (before : NodeId) (parentUsed : parent < size)
    {nodes : List NodeId} (used : ∀ node ∈ nodes, node < size) :
    Preserves (OutletState.Sound size) (insertNodes parent before nodes) := by
  induction nodes with
  | nil => exact .pure _
  | cons node rest induction =>
      obtain ⟨here, later⟩ := List.forall_mem_cons.mp used
      intro state sound
      obtain ⟨wellFormed, rfl⟩ := sound
      rw [insertNodes, get_bind]
      cases inserted : state.doc.insertBefore parent node (some before) with
      | error fault => exact ⟨wellFormed, rfl⟩
      | ok doc =>
          exact induction later { state with doc }
            ⟨wellFormed.insertBefore here parentUsed inserted, Document.size_insertBefore inserted⟩

theorem sound_insertBetween (used : ∀ node ∈ view.nodes, node < size)
    (previous next : Option ViewId) :
    Preserves (OutletState.Sound size) (insertBetween view previous next) := by
  intro state sound
  rw [insertBetween, get_bind]
  cases attached : state.doc.parent? state.outlet.anchor with
  | none => exact sound
  | some parent =>
      have parentUsed : parent < size := sound.2 ▸ sound.1.parent_lt_size attached
      have linked : Preserves (OutletState.Sound size) (modify fun state : OutletState =>
          { state with outlet := state.outlet.link view previous next } : OutletOp Unit) :=
        fun _ kept => kept
      exact (sound_insertNodes _ parentUsed used).bind (fun _ => linked) state sound

/-- The last step of every insertion, with neighbours that are read off the outlet. -/
theorem sound_insertion (used : ∀ node ∈ view.nodes, node < size)
    (previous next : OutletState → Option ViewId) :
    Preserves (OutletState.Sound size) (do
      checkInsertable view
      detach view
      let state ← get
      insertBetween view (previous state) (next state)) := by
  refine (preserves_checkInsertable view).bind fun _ => (sound_detach view).bind fun _ => ?_
  intro state sound
  exact sound_insertBetween used _ _ state sound

end Outlet

namespace OutletCall

open Outlet

theorem sound_perform {size : Nat} (call : OutletCall)
    (used : ∀ node ∈ call.view.nodes, node < size) :
    Preserves (OutletState.Sound size) call.perform := by
  cases call with
  | append view => exact sound_insertion used (·.outlet.last) fun _ => none
  | prepend view => exact sound_insertion used (fun _ => none) (·.outlet.first)
  | insertBefore view reference =>
      exact (preserves_checkReference view reference).bind fun _ =>
        sound_insertion used (·.outlet.previous? reference.id) fun _ => some reference.id
  | insertAfter view reference =>
      exact (preserves_checkReference view reference).bind fun _ =>
        sound_insertion used (fun _ => some reference.id) (·.outlet.next? reference.id)
  | remove view =>
      intro state sound
      rw [perform, Outlet.remove, get_bind]
      split_ifs
      · exact sound_detach view state sound
      · exact sound

theorem wellFormed_after {state : OutletState} (wellFormed : state.doc.WellFormed)
    (call : OutletCall) (used : ∀ node ∈ call.view.nodes, node < state.doc.size) :
    (state.after call).doc.WellFormed := by
  have result := call.sound_perform used state ⟨wellFormed, rfl⟩
  rw [OutletState.after]
  cases run : call.perform state with
  | ok value next =>
      rw [run] at result
      exact result.1
  | error error next =>
      rw [run] at result
      exact result.1

end OutletCall

end ViewTemplates
