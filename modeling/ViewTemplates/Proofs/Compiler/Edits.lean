import ViewTemplates.Compiler.Extraction
import ViewTemplates.Proofs.Compiler.Marking
import ViewTemplates.Proofs.Document.Subtree

/-!
The compiler's changes to a document, one by one: an anchor is put into an element that has no
children, or takes an element's place.
-/

namespace ViewTemplates

open Document

def swap (old new node : NodeId) : NodeId := if node = old then new else node

theorem map_of_fixed {row : List α} {f : α → α} (fixed : ∀ value ∈ row, f value = value) :
    row.map f = row := by
  rw [List.map_congr_left fixed, List.map_id']

theorem map_swap {row : List NodeId} {old new : NodeId} (absent : old ∉ row) :
    row.map (swap old new) = row := by
  apply map_of_fixed
  intro node member
  have different : node ≠ old := fun same => absent (same ▸ member)
  exact if_neg different

theorem filter_ne {row : List NodeId} {old : NodeId} (absent : old ∉ row) :
    row.filter (· != old) = row := by
  apply List.filter_eq_self.mpr
  intro node member
  have different : node ≠ old := fun same => absent (same ▸ member)
  simpa using different

theorem filter_placeBefore {row : List NodeId} {new old : NodeId} (member : old ∈ row)
    (nodup : row.Nodup) (fresh : new ∉ row) :
    (placeBefore new old row).filter (· != old) = row.map (swap old new) := by
  obtain ⟨front, back, rfl⟩ := List.append_of_mem member
  have absent : old ∉ front ∧ old ∉ back := by grind [List.nodup_append, List.nodup_cons]
  have different : new ≠ old := fun same => fresh (same ▸ member)
  rw [placeBefore_append absent.1, List.filter_append, List.map_append, List.map_cons,
    filter_ne absent.1, map_swap absent.1, map_swap absent.2]
  simp [different, swap, filter_ne absent.2]

section anchors
variable {doc : Document} (wellFormed : doc.WellFormed) {node : NodeId}
include wellFormed

theorem Document.WellFormed.new_notMem (parent : NodeId) : doc.size ∉ doc.children parent :=
  fun member => Nat.lt_irrefl _ (wellFormed.child_lt_size member)

theorem Document.WellFormed.not_below_new (used : node < doc.size) (kind : NodeKind) :
    ¬(doc.create kind).Below node doc.size := by
  intro below
  rcases Relation.ReflTransGen.cases_tail below with same | ⟨child, _, attached⟩
  · exact Nat.ne_of_lt used same.symm
  · have member := (wellFormed.create kind).mem_of_parent attached
    rw [children_create, children_of_size_le (Nat.le_refl _)] at member
    cases member

theorem Document.WellFormed.movable_new (used : node < doc.size) (kind : NodeKind)
    (container : (doc.kind node).isContainer = true) (reference : Option NodeId)
    (sibling : ∀ other, reference = some other → doc.parent? other = some node) :
    (doc.create kind).Movable node doc.size reference where
  container := by rwa [kind_create_of_lt _ _ _ used]
  used := by
    rw [size_create]
    exact Nat.lt_succ_self _
  parentUsed := by
    rw [size_create]
    exact Nat.lt_succ_of_lt used
  notBelow := wellFormed.not_below_new used kind
  sibling := by
    intro other equality
    rw [parent?_create]
    exact sibling other equality
  other := by
    intro same
    have attached := sibling doc.size same
    rw [parent?_of_size_le (Nat.le_refl _)] at attached
    cases attached

theorem Document.WellFormed.filter_ne_new (parent : NodeId) :
    (doc.children parent).filter (· != doc.size) = doc.children parent :=
  filter_ne (wellFormed.new_notMem parent)

theorem Edit.apply_anchorInside (text : String) (used : node < doc.size)
    (container : (doc.kind node).isContainer = true) (empty : doc.children node = []) :
    ∃ next, Edit.apply (.comment text) doc (.anchorInside node) = next ∧ next.WellFormed ∧
      next.size = doc.size + 1 ∧
      (∀ other, next.kind other =
        if other = doc.size then .comment text else doc.kind other) ∧
      ∀ other, next.children other =
        if other = node then [doc.size] else doc.children other := by
  have created := wellFormed.create (.comment text)
  have movable := wellFormed.movable_new used (.comment text) container none nofun
  refine ⟨(doc.create (.comment text)).moved node doc.size none, ?_, created.moved movable,
    ?_, ?_, ?_⟩
  · rw [Edit.apply, appendChild, created.insertBefore_eq movable]
  · rw [size_moved, size_create]
  · intro other
    rw [kind_moved, kind_create]
  · intro other
    rw [created.children_moved movable, children_create, children_create,
      wellFormed.filter_ne_new, wellFormed.filter_ne_new, empty]
    rfl

theorem Edit.apply_anchorInstead (text : String) (node : NodeId) :
    ∃ next, Edit.apply (.comment text) doc (.anchorInstead node) = next ∧ next.WellFormed ∧
      next.size = doc.size + 1 ∧
      (∀ other, next.kind other =
        if other = doc.size then .comment text else doc.kind other) ∧
      ∀ other, next.children other = (doc.children other).map (swap node doc.size) := by
  have created := wellFormed.create (.comment text)
  rw [Edit.apply]
  cases attached : doc.parent? node with
  | none =>
      refine ⟨doc.create (.comment text), ?_, created, size_create _ _,
        kind_create _ _, fun other => ?_⟩
      · simp only [parent?_create, attached]
      · have elsewhere : node ∉ doc.children other := fun member => by
          rw [wellFormed.parent_of_mem member] at attached
          cases attached
        rw [children_create, map_swap elsewhere]
  | some parent =>
      have movable := wellFormed.movable_new (wellFormed.parent_lt_size attached) (.comment text)
        (wellFormed.container_of_parent attached) (some node)
        (by
          rintro other equality
          cases equality
          exact attached)
      have moved := created.moved movable
      refine ⟨((doc.create (.comment text)).moved parent doc.size (some node)).remove node, ?_,
        moved.remove node, ?_, ?_, ?_⟩
      · simp only [parent?_create, attached]
        rw [replaceChild, created.insertBefore_eq movable]
      · rw [size_remove, size_moved, size_create]
      · intro other
        rw [kind_remove, kind_moved, kind_create]
      · intro other
        rw [moved.children_remove, created.children_moved movable, children_create,
          children_create, wellFormed.filter_ne_new, wellFormed.filter_ne_new]
        split
        next same =>
          rw [same]
          exact filter_placeBefore (wellFormed.mem_of_parent attached) (wellFormed.nodup parent)
            (wellFormed.new_notMem parent)
        next different =>
          have elsewhere : node ∉ doc.children other := fun member => by
            rw [wellFormed.parent_of_mem member] at attached
            cases attached
            exact different rfl
          rw [map_swap elsewhere, filter_ne elsewhere]

end anchors

namespace Setup

variable {setup : Setup} {doc : Document} {source : Forest (NodeId × NodeKind)}

def edited (setup : Setup) (doc : Document) (edits : List (Edit NodeId)) : Document :=
  edits.foldl (Edit.apply setup.anchor) doc

theorem edited_append (first second : List (Edit NodeId)) :
    setup.edited doc (first ++ second) = setup.edited (setup.edited doc first) second :=
  List.foldl_append

/-- Does an anchor take the node's place? -/
def isReplaced (setup : Setup) (kind : NodeKind) : Bool :=
  (setup.template? kind).isSome && setup.isTemplateElement kind

/-- The document has the source as it is, each node of it once. -/
structure Shows (doc : Document) (source : Forest (NodeId × NodeKind)) : Prop where
  wellFormed : doc.WellFormed
  holds : doc.Holds source
  used : ∀ node ∈ source.ids, node < doc.size
  nodup : source.ids.Nodup

theorem isContainer_of_template? {kind : NodeKind} {directive : DirectiveRef}
    (claimed : setup.template? kind = some directive) : kind.isContainer = true := by
  cases kind with
  | element => rfl
  | fragment => rfl
  | text value => cases claimed
  | comment value => cases claimed

end Setup

end ViewTemplates
