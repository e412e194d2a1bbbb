import Mathlib.Logic.Relation
import ViewTemplates.Proofs.Document.Reading

/-!
Well-formed documents: parents and child lists agree, and no node lies below itself. The lineage of
a node is then finite without its limit, and its length is a measure for going up and down.
-/

namespace ViewTemplates.Document

def ChildOf (doc : Document) (child parent : NodeId) : Prop := doc.parent? child = some parent

/-- The first node is the second, or one of its descendants. -/
def Below (doc : Document) : NodeId → NodeId → Prop := Relation.ReflTransGen doc.ChildOf

/-- The second node is a proper ancestor of the first. -/
def Under (doc : Document) : NodeId → NodeId → Prop := Relation.TransGen doc.ChildOf

structure WellFormed (doc : Document) : Prop where
  parent_iff : ∀ child parent, doc.parent? child = some parent ↔ child ∈ doc.children parent
  nodup : ∀ node, (doc.children node).Nodup
  leaf : ∀ node, (doc.kind node).isContainer = false → doc.children node = []
  acyclic : ∀ node, ¬doc.Under node node

/-- No node of the list is another one or lies below it. -/
def Apart (doc : Document) (nodes : List NodeId) : Prop :=
  nodes.Pairwise fun left right => ¬doc.Below left right ∧ ¬doc.Below right left

theorem below_of_mem_lineageWithin {doc : Document} {limit : Nat} {node ancestor : NodeId}
    (member : ancestor ∈ doc.lineageWithin limit node) : doc.Below node ancestor := by
  induction limit generalizing node with
  | zero => simp [lineageWithin] at member
  | succ limit induction =>
      rcases List.mem_cons.mp member with rfl | higher
      · exact .refl
      · cases attached : doc.parent? node with
        | none => simp [attached] at higher
        | some parent =>
            simp only [attached] at higher
            exact .head attached (induction higher)

section
variable {doc : Document} (wellFormed : doc.WellFormed)
include wellFormed

theorem WellFormed.parent_lt_size {node parent : NodeId}
    (attached : doc.parent? node = some parent) : parent < doc.size :=
  lt_size_of_mem_children ((wellFormed.parent_iff node parent).mp attached)

theorem WellFormed.child_lt_size {node child : NodeId} (member : child ∈ doc.children node) :
    child < doc.size :=
  lt_size_of_parent? ((wellFormed.parent_iff child node).mpr member)

theorem WellFormed.below_lt_size {node ancestor : NodeId} (below : doc.Below node ancestor)
    (used : node < doc.size) : ancestor < doc.size := by
  induction below with
  | refl => exact used
  | tail _ attached _ => exact wellFormed.parent_lt_size attached

theorem WellFormed.nodup_lineageWithin (limit : Nat) (node : NodeId) :
    (doc.lineageWithin limit node).Nodup := by
  induction limit generalizing node with
  | zero => exact List.nodup_nil
  | succ limit induction =>
      cases attached : doc.parent? node with
      | none => simp [lineageWithin, attached]
      | some parent =>
          simp only [lineageWithin, attached, List.nodup_cons]
          refine ⟨fun again => ?_, induction parent⟩
          exact wellFormed.acyclic node (.head' attached (below_of_mem_lineageWithin again))

theorem WellFormed.length_lineageWithin_le (limit : Nat) {node : NodeId}
    (used : node < doc.size) : (doc.lineageWithin limit node).length ≤ doc.size := by
  have inside : doc.lineageWithin limit node ⊆ List.range doc.size := fun ancestor member =>
    List.mem_range.mpr
      (wellFormed.below_lt_size (below_of_mem_lineageWithin member) used)
  simpa using (wellFormed.nodup_lineageWithin limit node).length_le_of_subset inside

end

theorem lineageWithin_succ_of_length_lt {doc : Document} {limit : Nat} {node : NodeId}
    (short : (doc.lineageWithin limit node).length < limit) :
    doc.lineageWithin (limit + 1) node = doc.lineageWithin limit node := by
  induction limit generalizing node with
  | zero => simp at short
  | succ limit induction =>
      cases attached : doc.parent? node with
      | none => simp [lineageWithin, attached]
      | some parent =>
          have shorter : (doc.lineageWithin limit parent).length < limit := by
            simpa [lineageWithin, attached] using short
          rw [lineageWithin, attached]
          simp only [induction shorter]
          simp [lineageWithin, attached]

theorem lineage_of_parent?_none {doc : Document} {node : NodeId}
    (detached : doc.parent? node = none) : doc.lineage node = [node] := by
  simp [lineage, lineageWithin, detached]

section
variable {doc : Document} (wellFormed : doc.WellFormed)
include wellFormed

theorem WellFormed.lineage_of_parent? {node parent : NodeId}
    (attached : doc.parent? node = some parent) :
    doc.lineage node = node :: doc.lineage parent := by
  have start : doc.lineage node = node :: doc.lineageWithin doc.size parent := by
    simp [lineage, lineageWithin, attached]
  have bounded := wellFormed.length_lineageWithin_le (doc.size + 1) (lt_size_of_parent? attached)
  have short : (doc.lineageWithin doc.size parent).length < doc.size := by
    have counted := congrArg List.length start
    simp only [lineage, List.length_cons] at counted
    omega
  rw [start, lineage, lineageWithin_succ_of_length_lt short]

theorem WellFormed.mem_lineage_iff {node ancestor : NodeId} :
    ancestor ∈ doc.lineage node ↔ doc.Below node ancestor := by
  constructor
  · exact below_of_mem_lineageWithin
  · intro below
    induction below using Relation.ReflTransGen.head_induction_on with
    | refl => simp [lineage, lineageWithin]
    | head attached _ member =>
        rw [wellFormed.lineage_of_parent? attached]
        exact List.mem_cons_of_mem _ member

theorem WellFormed.isAncestorOf_iff {ancestor node : NodeId} :
    doc.isAncestorOf ancestor node = true ↔ doc.Below node ancestor := by
  rw [isAncestorOf, List.contains_iff_mem, wellFormed.mem_lineage_iff]

end

/-- The number of nodes on the way from a node up to its root. -/
def depth (doc : Document) (node : NodeId) : Nat := (doc.lineage node).length

theorem depth_pos (doc : Document) (node : NodeId) : 0 < doc.depth node := by
  simp [depth, lineage, lineageWithin]

section
variable {doc : Document} (wellFormed : doc.WellFormed)
include wellFormed

theorem WellFormed.depth_le (node : NodeId) : doc.depth node ≤ doc.size + 1 := by
  cases attached : doc.parent? node with
  | none => simp [depth, lineage_of_parent?_none attached]
  | some parent =>
      exact Nat.le_succ_of_le
        (wellFormed.length_lineageWithin_le _ (lt_size_of_parent? attached))

theorem WellFormed.depth_of_parent? {node parent : NodeId}
    (attached : doc.parent? node = some parent) : doc.depth node = doc.depth parent + 1 := by
  simp [depth, wellFormed.lineage_of_parent? attached]

theorem WellFormed.depth_of_mem_children {node child : NodeId}
    (member : child ∈ doc.children node) : doc.depth child = doc.depth node + 1 :=
  wellFormed.depth_of_parent? ((wellFormed.parent_iff child node).mpr member)

theorem WellFormed.depth_le_of_below {node ancestor : NodeId}
    (below : doc.Below node ancestor) : doc.depth ancestor ≤ doc.depth node := by
  induction below using Relation.ReflTransGen.head_induction_on with
  | refl => exact Nat.le_refl _
  | head attached _ induction =>
      rw [wellFormed.depth_of_parent? attached]
      exact Nat.le_succ_of_le induction

/-- Two ancestors of one node at the same depth are the same. -/
theorem WellFormed.below_unique {node left right : NodeId} (toLeft : doc.Below node left)
    (toRight : doc.Below node right) (level : doc.depth left = doc.depth right) :
    left = right := by
  induction toLeft using Relation.ReflTransGen.head_induction_on with
  | refl =>
      rcases Relation.ReflTransGen.cases_head toRight with same | ⟨parent, attached, above⟩
      · exact same
      · have higher := wellFormed.depth_le_of_below above
        have step := wellFormed.depth_of_parent? attached
        omega
  | head attached above induction =>
      rcases Relation.ReflTransGen.cases_head toRight with rfl | ⟨parent, again, higher⟩
      · have lower := wellFormed.depth_le_of_below above
        have step := wellFormed.depth_of_parent? attached
        omega
      · obtain rfl : _ = parent := Option.some.inj (attached.symm.trans again)
        exact induction higher

end

end ViewTemplates.Document
