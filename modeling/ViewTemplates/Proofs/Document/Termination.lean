import Mathlib.Logic.Function.Iterate
import ViewTemplates.Proofs.Document.Subtree

/-!
The ways through a well-formed document come to an end: up to the root, over everything below a list
of nodes, and down through the children. The limits that the definitions carry are never met.
-/

namespace ViewTemplates.Document

/-- One step of the way up from a node; above a root there is nothing. -/
def up (doc : Document) (current : Option NodeId) : Option NodeId := current.bind doc.parent?

/-- One step of the walk over a stack: the children of the node on top take its place. -/
def visit (doc : Document) : List NodeId → List NodeId
  | [] => []
  | node :: stack => doc.children node ++ stack

/-- Every way through the document ends, and no limit cuts it off: that of a node's lineage, that of
the walk over its elements, and that of the depth of a copy. -/
structure Terminates (doc : Document) : Prop where
  up : ∀ node, ∃ steps, doc.up^[steps] (some node) = none
  visit : ∀ stack, ∃ steps, doc.visit^[steps] stack = []
  down : WellFounded fun child node => child ∈ doc.children node
  lineage : ∀ node limit, doc.size < limit → doc.lineageWithin limit node = doc.lineage node
  elements : ∀ nodes limit, (∀ node ∈ nodes, node < doc.size) → nodes.length * doc.size < limit →
    doc.elementsWithin limit nodes = doc.elementsInOrder nodes
  forest : ∀ nodes limit, doc.size < limit → doc.forestWithin limit nodes = doc.forest nodes

/-- A well-formed document, with what follows: no link leads out of it, and every way ends. -/
structure Tree (doc : Document) : Prop extends doc.WellFormed where
  parent_lt : ∀ node parent, doc.parent? node = some parent → parent < doc.size
  child_lt : ∀ node, ∀ child ∈ doc.children node, child < doc.size
  terminates : doc.Terminates

variable {doc : Document}

/-- A forest that stands on top of the stack is visited node by node. -/
theorem Holds.visit {forest : Forest (NodeId × NodeKind)} (holds : doc.Holds forest)
    (stack : List NodeId) :
    doc.visit^[forest.preorder.length] (forest.tops ++ stack) = stack := by
  induction forest generalizing stack with
  | nil => rfl
  | cons entry below rest inner outer =>
      obtain ⟨_, children, belowHolds, restHolds⟩ := holds
      have first : doc.visit ((Forest.cons entry below rest).tops ++ stack) =
          below.tops ++ (rest.tops ++ stack) := by
        rw [← children]
        rfl
      rw [Forest.preorder, List.length_cons, List.length_append, Function.iterate_succ_apply,
        first, Nat.add_comm, Function.iterate_add_apply, inner belowHolds, outer restHolds]

section
variable (wellFormed : doc.WellFormed)
include wellFormed

theorem WellFormed.exists_up (node : NodeId) : ∃ steps, doc.up^[steps] (some node) = none := by
  induction level : doc.depth node generalizing node with
  | zero => exact absurd level (Nat.ne_of_gt (doc.depth_pos node))
  | succ depth induction =>
      cases attached : doc.parent? node with
      | none => exact ⟨1, attached⟩
      | some parent =>
          have step := wellFormed.depth_of_parent? attached
          obtain ⟨steps, ends⟩ := induction parent (by omega)
          refine ⟨steps + 1, ?_⟩
          rw [Function.iterate_succ_apply, Document.up, Option.bind_some, attached, ends]

theorem WellFormed.exists_visit (stack : List NodeId) :
    ∃ steps, doc.visit^[steps] stack = [] := by
  obtain ⟨holds, tops⟩ := wellFormed.holds_forest stack
  have walk := holds.visit []
  rw [tops, List.append_nil] at walk
  exact ⟨_, walk⟩

/-- Below a node the depth grows, and it is bounded by the size of the document. -/
theorem WellFormed.wellFounded_children :
    WellFounded fun child node => child ∈ doc.children node := by
  refine Subrelation.wf ?_ (measure fun node => doc.size + 1 - doc.depth node).wf
  intro child node member
  have deeper := wellFormed.depth_of_mem_children member
  have bound := wellFormed.depth_le child
  change doc.size + 1 - doc.depth child < doc.size + 1 - doc.depth node
  omega

omit wellFormed in
theorem lineageWithin_add {limit : Nat} {node : NodeId}
    (short : (doc.lineageWithin limit node).length < limit) (extra : Nat) :
    doc.lineageWithin (limit + extra) node = doc.lineageWithin limit node := by
  induction extra with
  | zero => rfl
  | succ extra induction =>
      rw [← Nat.add_assoc, lineageWithin_succ_of_length_lt (by rw [induction]; omega), induction]

theorem WellFormed.lineageWithin_eq (node : NodeId) {limit : Nat} (enough : doc.size < limit) :
    doc.lineageWithin limit node = doc.lineage node := by
  obtain ⟨extra, rfl⟩ := Nat.exists_eq_add_of_le enough
  rcases Nat.lt_or_ge node doc.size with used | unused
  · refine lineageWithin_add ?_ extra
    have bounded := wellFormed.length_lineageWithin_le doc.size.succ used
    omega
  · rw [lineage_of_parent?_none (parent?_of_size_le unused), Nat.succ_add, lineageWithin,
      parent?_of_size_le unused]

theorem WellFormed.elementsWithin_eq {nodes : List NodeId} (used : ∀ node ∈ nodes, node < doc.size)
    {limit : Nat} (enough : nodes.length * doc.size < limit) :
    doc.elementsWithin limit nodes = doc.elementsInOrder nodes := by
  obtain ⟨holds, tops⟩ := wellFormed.holds_forest nodes
  have bounded := holds.length_preorder_le wellFormed (tops.symm ▸ used)
  rw [tops] at bounded
  obtain ⟨extra, rfl⟩ := Nat.exists_eq_add_of_le (Nat.le_trans bounded (Nat.le_of_lt enough))
  have walk := holds.elementsWithin_eq extra []
  rw [tops, List.append_nil, elementsWithin_nil, List.append_nil] at walk
  rw [walk, wellFormed.elementsInOrder_eq used]

theorem WellFormed.forestWithin_eq (nodes : List NodeId) {limit : Nat}
    (enough : doc.size < limit) : doc.forestWithin limit nodes = doc.forest nodes := by
  have deep : ∀ node ∈ nodes, doc.size + 1 < limit + doc.depth node := by
    intro node _
    have positive := doc.depth_pos node
    omega
  obtain ⟨holds, tops⟩ := wellFormed.holds_forestWithin deep
  obtain ⟨again, same⟩ := wellFormed.holds_forest nodes
  exact holds.unique again (tops.trans same.symm)

theorem WellFormed.terminates : doc.Terminates where
  up := wellFormed.exists_up
  visit := wellFormed.exists_visit
  down := wellFormed.wellFounded_children
  lineage node _ enough := wellFormed.lineageWithin_eq node enough
  elements _ _ used enough := wellFormed.elementsWithin_eq used enough
  forest nodes _ enough := wellFormed.forestWithin_eq nodes enough

theorem WellFormed.tree : doc.Tree where
  toWellFormed := wellFormed
  parent_lt _ _ attached := wellFormed.parent_lt_size attached
  child_lt _ _ member := wellFormed.child_lt_size member
  terminates := wellFormed.terminates

end

end ViewTemplates.Document
