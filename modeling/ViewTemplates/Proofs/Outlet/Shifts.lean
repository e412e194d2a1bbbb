import Mathlib.Data.List.Infix
import ViewTemplates.Proofs.Outlet.Courses

/-!
What a call on an outlet does to the rows of a document: the nodes of its view leave them, and are
put in front of one target. Everything else keeps its order, and what stood side by side still does
unless the target is in the midst of it.
-/

namespace ViewTemplates

/-- What becomes of a row when given nodes leave it or are put in front of a target. -/
inductive Shifted (nodes : List NodeId) (target : Option NodeId) (row : List NodeId) :
    List NodeId → Prop where
  | refl : Shifted nodes target row row
  | leave {next : List NodeId} {node : NodeId} :
      Shifted nodes target row next → node ∈ nodes →
      Shifted nodes target row (next.filter (· != node))
  | join {next : List NodeId} {node before : NodeId} :
      Shifted nodes target row next → node ∈ nodes → target = some before →
      Shifted nodes target row (Document.placeBefore node before next)

namespace Document

/-- The row before a place and the row from it on; behind the place stands the sibling, if any. -/
theorem placeBefore_split (node sibling : NodeId) (row : List NodeId) :
    ∃ front back, row = front ++ back ∧
      placeBefore node sibling row = front ++ node :: back ∧
      ∀ first ∈ back.head?, first = sibling := by
  induction row with
  | nil => exact ⟨[], [], rfl, rfl, nofun⟩
  | cons child rest induction =>
      rw [placeBefore]
      split
      next same => exact ⟨[], child :: rest, rfl, rfl, fun first head => by simp_all⟩
      next =>
        obtain ⟨front, back, split, placed, head⟩ := induction
        exact ⟨child :: front, back, by rw [split]; rfl, by rw [placed]; rfl, head⟩

theorem infix_placeBefore {node sibling : NodeId} {block row : List NodeId} (side : block <:+: row)
    (outside : sibling ∉ block.tail) : block <:+: placeBefore node sibling row := by
  obtain ⟨front, back, split, placed, head⟩ := placeBefore_split node sibling row
  obtain ⟨left, right, rfl⟩ := side
  rw [placed]
  rw [List.append_assoc] at split
  rcases List.append_eq_append_iff.mp split with ⟨start, rfl, rest⟩ | ⟨gap, rfl, rfl⟩
  · rcases List.append_eq_append_iff.mp rest with ⟨gap, rfl, rfl⟩ | ⟨last, rfl, rfl⟩
    · -- The place is behind the block.
      exact ⟨left, gap ++ node :: back, by simp⟩
    · -- The place would be within the block, and the sibling behind its first node.
      cases start with
      | nil => exact ⟨left ++ [node], right, by simp⟩
      | cons first others =>
          cases last with
          | nil => exact ⟨left, node :: right, by simp⟩
          | cons next later =>
              obtain rfl := head next rfl
              exact absurd (by simp) outside
  · exact ⟨front ++ node :: gap, right, by simp⟩

end Document

namespace Shifted

variable {nodes : List NodeId} {target : Option NodeId} {row next last : List NodeId}

theorem trans (first : Shifted nodes target row next) (second : Shifted nodes target next last) :
    Shifted nodes target row last := by
  induction second with
  | refl => exact first
  | leave _ member induction => exact .leave induction member
  | join _ member before induction => exact .join induction member before

/-- Only the given nodes leave or join the row. -/
theorem filter_eq (shifted : Shifted nodes target row next) :
    next.filter (· ∉ nodes) = row.filter (· ∉ nodes) := by
  induction shifted with
  | refl => rfl
  | @leave next node _ member induction =>
      rw [← induction, List.filter_filter]
      apply List.filter_congr
      intro other _
      by_cases same : other = node <;> simp [same, member]
  | @join next node before _ member _ induction =>
      obtain ⟨front, back, split, placed, _⟩ := Document.placeBefore_split node before next
      rw [placed, ← induction, split, List.filter_append, List.filter_append,
        List.filter_cons_of_neg (by simpa using member)]

section block
variable {block : List NodeId} (shifted : Shifted nodes target row next)
  (apart : ∀ node ∈ block, node ∉ nodes)
include shifted apart

theorem isInfix_filter (side : block <:+: row) : block <:+: next.filter (· ∉ nodes) := by
  rw [shifted.filter_eq, ← filter_notMem_eq_self apart]
  exact side.filter _

theorem sublist (order : block.Sublist row) : block.Sublist next := by
  have kept : block.Sublist (next.filter (· ∉ nodes)) := by
    rw [shifted.filter_eq, ← filter_notMem_eq_self apart]
    exact order.filter _
  exact kept.trans List.filter_sublist

theorem isInfix (outside : ∀ before ∈ target, before ∉ block.tail) (side : block <:+: row) :
    block <:+: next := by
  induction shifted with
  | refl => exact side
  | @leave next node _ member induction =>
      have stays : block.filter (· != node) = block :=
        List.filter_eq_self.mpr fun other inside => by
          simpa using fun same : other = node => apart other inside (same ▸ member)
      rw [← stays]
      exact induction.filter _
  | join _ _ found induction => exact Document.infix_placeBefore induction (outside _ found)

end block

end Shifted

namespace Document

/-- The children of a node's parent. -/
def siblings (doc : Document) (node : NodeId) : List NodeId :=
  match doc.parent? node with
  | some parent => doc.children parent
  | none => []

theorem siblings_eq {doc : Document} {node parent : NodeId}
    (attached : doc.parent? node = some parent) : doc.siblings node = doc.children parent := by
  rw [siblings, attached]

/-- Only the given nodes get other parents, and all rows are shifted by them. -/
structure Shifts (doc next : Document) (nodes : List NodeId) (target : Option NodeId) : Prop where
  parent? : ∀ node, node ∉ nodes → next.parent? node = doc.parent? node
  children : ∀ parent, Shifted nodes target (doc.children parent) (next.children parent)

namespace Shifts

variable {doc next last : Document} {nodes : List NodeId} {target : Option NodeId}

theorem refl : doc.Shifts doc nodes target where
  parent? := fun _ _ => rfl
  children := fun _ => .refl

theorem trans (first : doc.Shifts next nodes target) (second : next.Shifts last nodes target) :
    doc.Shifts last nodes target where
  parent? := fun node outside => (second.parent? node outside).trans (first.parent? node outside)
  children := fun parent => (first.children parent).trans (second.children parent)

theorem siblings (shifts : doc.Shifts next nodes target) {node : NodeId} (outside : node ∉ nodes) :
    Shifted nodes target (doc.siblings node) (next.siblings node) := by
  rw [Document.siblings, Document.siblings, shifts.parent? node outside]
  cases doc.parent? node with
  | none => exact .refl
  | some parent => exact shifts.children parent

section steps
variable (wellFormed : doc.WellFormed)
include wellFormed

theorem remove {node : NodeId} (member : node ∈ nodes) :
    doc.Shifts (doc.remove node) nodes target where
  parent? := by
    intro other outside
    have different : other ≠ node := fun same => outside (same ▸ member)
    rw [parent?_remove, if_neg different]
  children := by
    intro parent
    rw [wellFormed.children_remove]
    exact .leave .refl member

theorem moved {parent node before : NodeId} (movable : doc.Movable parent node (some before))
    (member : node ∈ nodes) : doc.Shifts (doc.moved parent node (some before)) nodes
      (some before) where
  parent? := by
    intro other outside
    have different : other ≠ node := fun same => outside (same ▸ member)
    rw [parent?_moved movable, if_neg different]
  children := by
    intro other
    rw [wellFormed.children_moved movable]
    split
    next same =>
      rw [← same]
      exact .join (.leave .refl member) member rfl
    next => exact .leave .refl member

theorem foldl_remove {gone : List NodeId} (subset : ∀ node ∈ gone, node ∈ nodes) :
    doc.Shifts (gone.foldl Document.remove doc) nodes target := by
  induction gone generalizing doc with
  | nil => exact .refl
  | cons node rest induction =>
      obtain ⟨member, later⟩ := List.forall_mem_cons.mp subset
      exact (remove wellFormed member).trans (induction (wellFormed.remove node) later)

end steps

end Shifts

end Document

/-- The document is a well-formed one with this many nodes whose rows have been shifted. -/
structure OutletState.HasShifted (doc : Document) (nodes : List NodeId) (target : Option NodeId)
    (state : OutletState) : Prop where
  wellFormed : state.doc.WellFormed
  size : state.doc.size = doc.size
  shifts : doc.Shifts state.doc nodes target

namespace Outlet

theorem shifts_insertNodes {doc : Document} {nodes rest : List NodeId} {parent before : NodeId}
    (parentUsed : parent < doc.size) (used : ∀ node ∈ rest, node < doc.size)
    (subset : ∀ node ∈ rest, node ∈ nodes) :
    Preserves (OutletState.HasShifted doc nodes (some before))
      (insertNodes parent before rest) := by
  induction rest with
  | nil => exact .pure _
  | cons node rest induction =>
      obtain ⟨nodeUsed, restUsed⟩ := List.forall_mem_cons.mp used
      obtain ⟨member, later⟩ := List.forall_mem_cons.mp subset
      intro state shifted
      rw [insertNodes, get_bind]
      cases inserted : state.doc.insertBefore parent node (some before) with
      | error fault => exact shifted
      | ok next =>
          refine induction restUsed later { state with doc := next } ?_
          rcases shifted.wellFormed.insertBefore_cases (shifted.size ▸ nodeUsed)
            (shifted.size ▸ parentUsed) inserted with ⟨_, rfl⟩ | ⟨movable, rfl⟩
          · exact shifted
          · exact ⟨shifted.wellFormed.moved movable, Document.size_moved.trans shifted.size,
              shifted.shifts.trans (.moved shifted.wellFormed movable member)⟩

end Outlet

theorem OutletState.hasShifted_taken {state : OutletState} (wellFormed : state.doc.WellFormed)
    (view : View) (target : Option NodeId) :
    OutletState.HasShifted state.doc view.nodes target (state.taken view) where
  wellFormed := state.wellFormed_taken view wellFormed
  size := state.size_taken view
  shifts := by
    rcases state.taken_eq_or view with same | removed
    · rw [same]
      exact .refl
    · rw [removed]
      exact .foldl_remove wellFormed fun _ member => member

/-- A call moves the nodes of its view only, whether it succeeds or fails. -/
theorem OutletCall.shifts {state : OutletState} {nodesOf : ViewId → List NodeId}
    {sequence : List ViewId} {call : OutletCall} (wellFormed : state.doc.WellFormed)
    (sequenced : state.outlet.Sequenced nodesOf sequence)
    (given : ∀ view ∈ call.views, nodesOf view.id = view.nodes)
    (used : ∀ node ∈ call.view.nodes, node < state.doc.size) :
    OutletState.HasShifted state.doc call.view.nodes (call.target? nodesOf state.outlet)
      (state.after call) := by
  rw [OutletState.after]
  cases course sequenced given with
  | refused _ run =>
      rw [run]
      exact ⟨wellFormed, rfl, .refl⟩
  | removed _ run =>
      rw [run]
      exact state.hasShifted_taken wellFormed _ _
  | @placed _ left right parent _ split _ behind fits run =>
      have taken := sequenced.taken call.view
      rw [split] at taken
      have target := target?_of_behind sequenced behind
      rw [← state.anchor_taken call.view, ← taken.nodeBehind_eq rfl] at target
      have begun := state.hasShifted_taken wellFormed call.view (call.target? nodesOf state.outlet)
      have parentUsed := wellFormed.parent_lt_size fits.attached
      rw [run, target]
      rw [target] at begun
      have placing := Outlet.shifts_insertNodes parentUsed used (fun _ member => member) _ begun
      rcases Outlet.insertBetween_cases fits.taken call.view left.getLast? right.head? with
        ⟨doc, placed, inserted⟩ | ⟨fault, doc, stopped, failed⟩
      · rw [placed] at placing
        rw [inserted]
        exact ⟨placing.wellFormed, placing.size, placing.shifts⟩
      · rw [stopped] at placing
        rw [failed]
        exact placing

end ViewTemplates
