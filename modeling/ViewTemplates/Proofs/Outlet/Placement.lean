import ViewTemplates.Outlet
import ViewTemplates.Proofs.Document.Moves
import ViewTemplates.Proofs.Runs

/-!
Nodes put in front of a sibling one after the other: no step fails, and they end up side by side.
-/

namespace ViewTemplates

/-- What a row of nodes needs to be put in front of a sibling. -/
structure Document.Placeable (doc : Document) (parent before : NodeId) (nodes : List NodeId) :
    Prop where
  sibling : doc.parent? before = some parent
  absent : before ∉ nodes
  nodup : nodes.Nodup
  used : ∀ node ∈ nodes, node < doc.size
  notBelow : ∀ node ∈ nodes, ¬doc.Below parent node

namespace Document

namespace Placeable

variable {doc : Document} {parent before node : NodeId} {nodes : List NodeId}

theorem movable (wellFormed : doc.WellFormed)
    (placeable : doc.Placeable parent before (node :: nodes)) :
    doc.Movable parent node (some before) where
  container := wellFormed.container_of_parent placeable.sibling
  used := placeable.used node List.mem_cons_self
  parentUsed := wellFormed.parent_lt_size placeable.sibling
  notBelow := placeable.notBelow node List.mem_cons_self
  sibling := by
    rintro other equality
    obtain rfl : before = other := Option.some.inj equality
    exact placeable.sibling
  other := by
    intro equality
    obtain rfl : before = node := Option.some.inj equality
    exact placeable.absent List.mem_cons_self

theorem moved (wellFormed : doc.WellFormed)
    (placeable : doc.Placeable parent before (node :: nodes)) :
    (doc.moved parent node (some before)).Placeable parent before nodes := by
  have movable := placeable.movable wellFormed
  have distinct := List.nodup_cons.mp placeable.nodup
  constructor
  case sibling =>
    have other : before ≠ node := fun equality =>
      placeable.absent (equality ▸ List.mem_cons_self)
    rw [parent?_moved movable, if_neg other]
    exact placeable.sibling
  case absent => exact fun member => placeable.absent (List.mem_cons_of_mem _ member)
  case nodup => exact distinct.2
  case used =>
    intro later member
    rw [size_moved]
    exact placeable.used later (List.mem_cons_of_mem _ member)
  case notBelow =>
    intro later member below
    exact placeable.notBelow later (List.mem_cons_of_mem _ member) (below_moved movable below)

end Placeable

end Document

namespace Outlet

theorem filter_filter_cons (row : List NodeId) (node : NodeId) (rest : List NodeId) :
    (row.filter (· != node)).filter (· ∉ rest) = row.filter (· ∉ node :: rest) := by
  rw [List.filter_filter]
  apply List.filter_congr
  intro other _
  by_cases first : other = node <;> simp [first]

theorem insertNodes_cons {node : NodeId} {rest : List NodeId} {state : OutletState}
    {parent before : NodeId} {doc : Document}
    (inserted : state.doc.insertBefore parent node (some before) = .ok doc) :
    insertNodes parent before (node :: rest) state =
      insertNodes parent before rest { state with doc } := by
  rw [insertNodes, get_bind]
  simp only [inserted]
  rw [set_bind]

/-- The nodes end up side by side in front of their sibling, and nowhere else. -/
theorem insertNodes_eq {nodes : List NodeId} {state : OutletState} {parent before : NodeId}
    {front back : List NodeId} (wellFormed : state.doc.WellFormed)
    (placeable : state.doc.Placeable parent before nodes)
    (row : state.doc.children parent = front ++ before :: back) :
    ∃ doc, insertNodes parent before nodes state = .ok () { state with doc } ∧
      doc.WellFormed ∧ doc.size = state.doc.size ∧
      (∀ other, doc.kind other = state.doc.kind other) ∧
      doc.children parent =
        front.filter (· ∉ nodes) ++ nodes ++ before :: back.filter (· ∉ nodes) ∧
      ∀ other, other ≠ parent →
        doc.children other = (state.doc.children other).filter (· ∉ nodes) := by
  induction nodes generalizing state front back with
  | nil =>
      have unfiltered (row : List NodeId) : row.filter (· ∉ []) = row :=
        List.filter_eq_self.mpr (by simp)
      refine ⟨state.doc, rfl, wellFormed, rfl, fun _ => rfl, ?_, fun other _ => ?_⟩
      · rw [unfiltered, unfiltered, row, List.append_nil]
      · rw [unfiltered]
  | cons node rest induction =>
      have movable := placeable.movable wellFormed
      have distinct := List.nodup_cons.mp placeable.nodup
      have different : before ≠ node := fun equality =>
        placeable.absent (equality ▸ List.mem_cons_self)
      have childless : before ∉ front.filter (· != node) := by
        have rowNodup := wellFormed.nodup parent
        rw [row, List.nodup_append] at rowNodup
        intro member
        exact rowNodup.2.2 before (List.mem_filter.mp member).1 before List.mem_cons_self rfl
      have middleRow : (state.doc.moved parent node (some before)).children parent =
          (front.filter (· != node) ++ [node]) ++ before :: back.filter (· != node) := by
        rw [wellFormed.children_moved movable, if_pos rfl, row, List.filter_append,
          List.filter_cons_of_pos (by simpa using different), Document.place,
          Document.placeBefore_append childless]
        simp
      let middle : OutletState :=
        { state with doc := state.doc.moved parent node (some before) }
      have middleWellFormed : middle.doc.WellFormed := wellFormed.moved movable
      obtain ⟨doc, run, docWellFormed, size, kind, children, others⟩ :=
        induction middleWellFormed (placeable.moved wellFormed) middleRow
      refine ⟨doc, ?_, docWellFormed, ?_, ?_, ?_, ?_⟩
      · rw [insertNodes_cons (wellFormed.insertBefore_eq movable)]
        exact run
      · rw [size, Document.size_moved]
      · intro other
        rw [kind, Document.kind_moved]
      · rw [children, List.filter_append, filter_filter_cons, filter_filter_cons]
        simp [distinct.1]
      · intro other apart
        rw [others other apart, wellFormed.children_moved movable, if_neg apart,
          filter_filter_cons]

end Outlet

end ViewTemplates
