import ViewTemplates.Proofs.Compiler.Specification
import ViewTemplates.Proofs.Document.Subtree

/-!
Templates in a document. A layout says for each node of a template which node of the document it
is; positions in the one are then positions in the other.
-/

namespace ViewTemplates

namespace Forest

theorem Aligned.sites {related : α → β → Prop} {left : Forest α} {right : Forest β}
    (aligned : Aligned related left right) (level : Nat) :
    List.Forall₂
      (fun one other => related one.value other.value ∧ List.Forall₂ related one.row other.row)
      (left.sites level) (right.sites level) := by
  induction aligned generalizing level with
  | nil => exact .nil
  | cons head below _ inner outer =>
      exact .cons ⟨head, below.roots⟩ (List.rel_append (inner _) (outer _))

theorem Aligned.preorder {related : α → β → Prop} {left : Forest α} {right : Forest β}
    (aligned : Aligned related left right) :
    List.Forall₂ related left.preorder right.preorder := by
  induction aligned with
  | nil => exact .nil
  | cons head _ _ inner outer => exact .cons head (List.rel_append inner outer)

theorem exists_zip {f : α → γ} {g : β → γ} {left : Forest (NodeId × α)} {right : Forest β}
    (equal : (left.map fun entry => f entry.2) = right.map g) :
    ∃ both : Forest (NodeId × β), both.map Prod.snd = right ∧
      Aligned (fun one other => one.1 = other.1 ∧ f one.2 = g other.2) left both := by
  induction left generalizing right with
  | nil =>
      cases right with
      | nil => exact ⟨.nil, rfl, .nil⟩
      | cons => cases equal
  | cons entry below rest inner outer =>
      cases right with
      | nil => cases equal
      | cons value otherBelow otherRest =>
          obtain ⟨same, sameBelow, sameRest⟩ := Forest.cons.inj equal
          obtain ⟨bothBelow, secondBelow, alignedBelow⟩ := inner sameBelow
          obtain ⟨bothRest, secondRest, alignedRest⟩ := outer sameRest
          refine ⟨.cons (entry.1, value) bothBelow bothRest, ?_,
            .cons ⟨rfl, same⟩ alignedBelow alignedRest⟩
          rw [map, secondBelow, secondRest]

theorem aligned_map {f : β → α} (forest : Forest (NodeId × β)) :
    Aligned (fun (one : NodeId × α) (other : NodeId × β) =>
        one.1 = other.1 ∧ one.2 = f other.2)
      (forest.map fun entry => (entry.1, f entry.2)) forest := by
  induction forest with
  | nil => exact .nil
  | cons entry below rest first second => exact .cons ⟨rfl, rfl⟩ first second

end Forest

abbrev Origin.isElementAt (entry : NodeId × Origin) : Bool := entry.2.isElement

/-- The nodes have the layout: its elements are theirs in document order, and the row below a node
is that of its children. -/
structure Document.Laid (doc : Document) (nodes : List NodeId)
    (layout : Forest (NodeId × Origin)) : Prop where
  tops : layout.tops = nodes
  elements : doc.elementsInOrder nodes =
    (layout.sitesOf Origin.isElementAt).map fun site => site.value.1
  children : ∀ site ∈ layout.sites 1, doc.children site.value.1 = site.row.map Prod.fst

namespace Document

variable {doc : Document}

theorem Holds.children_of_site {forest : Forest (NodeId × NodeKind)} (holds : doc.Holds forest)
    (level : Nat) : ∀ site ∈ forest.sites level,
      doc.children site.value.1 = site.row.map Prod.fst := by
  induction forest generalizing level with
  | nil => exact nofun
  | cons entry below rest inner outer =>
      obtain ⟨_, children, belowHolds, restHolds⟩ := holds
      intro site member
      rcases List.mem_cons.mp member with rfl | member
      · exact children
      · rcases List.mem_append.mp member with inside | beside
        · exact inner belowHolds _ site inside
        · exact outer restHolds _ site beside

def SameNode (one : NodeId × NodeKind) (other : NodeId × Origin) : Prop :=
  one.1 = other.1 ∧ one.2.isElement = other.2.isElement

theorem map_fst_of_sameNode {row : List (NodeId × NodeKind)} {other : List (NodeId × Origin)}
    (rows : List.Forall₂ SameNode row other) : row.map Prod.fst = other.map Prod.fst := by
  induction rows with
  | nil => rfl
  | cons head _ induction => rw [List.map_cons, List.map_cons, head.1, induction]

theorem filter_of_sameNode {row : List (NodeId × NodeKind)} {other : List (NodeId × Origin)}
    (rows : List.Forall₂ SameNode row other) :
    List.Forall₂ SameNode (row.filter fun entry => entry.2.isElement)
      (other.filter Origin.isElementAt) := by
  induction rows with
  | nil => exact .nil
  | @cons one spot _ _ head _ induction =>
      rw [List.filter_cons, List.filter_cons, head.2]
      split
      · exact .cons head induction
      · exact induction

theorem elementsOf_of_sameNode {forest : Forest (NodeId × NodeKind)}
    {layout : Forest (NodeId × Origin)} (aligned : Forest.Aligned SameNode forest layout) :
    elementsOf forest = (layout.sitesOf Origin.isElementAt).map fun site => site.value.1 := by
  have values : (layout.sitesOf Origin.isElementAt).map (fun site => site.value.1) =
      ((layout.sitesOf Origin.isElementAt).map Forest.Site.value).map Prod.fst := by
    rw [List.map_map]
    rfl
  rw [elementsOf, values, Forest.map_value_sitesOf]
  exact map_fst_of_sameNode (filter_of_sameNode aligned.preorder)

theorem WellFormed.laid {forest : Forest (NodeId × NodeKind)} (wellFormed : doc.WellFormed)
    (holds : doc.Holds forest) (used : ∀ node ∈ forest.tops, node < doc.size)
    {layout : Forest (NodeId × Origin)} (aligned : Forest.Aligned SameNode forest layout) :
    doc.Laid forest.tops layout := by
  constructor
  case tops => exact (map_fst_of_sameNode aligned.roots).symm
  case elements =>
    rw [wellFormed.elementsInOrder_eq used, wellFormed.forest_eq holds]
    exact elementsOf_of_sameNode aligned
  case children =>
    intro site member
    obtain ⟨index, found⟩ := List.mem_iff_getElem?.mp member
    obtain ⟨other, matched, ⟨same, _⟩, rows⟩ :=
      Forest.getElem?_of_forall₂ (aligned.sites 1).flip found
    rw [← same, holds.children_of_site 1 other (List.mem_of_getElem? matched),
      map_fst_of_sameNode rows]

end Document

theorem Setup.isElement_kindOf (setup : Setup) (origin : Origin) :
    (setup.kindOf origin).isElement = origin.isElement := by
  cases origin <;> rfl

theorem Setup.sameNode_kindOf (setup : Setup) (layout : Forest (NodeId × Origin)) :
    Forest.Aligned Document.SameNode
      (layout.map fun entry => (entry.1, setup.kindOf entry.2)) layout := by
  refine Forest.Aligned.mono (Forest.aligned_map layout) ?_
  rintro one other ⟨same, kind⟩
  exact ⟨same, by rw [kind, setup.isElement_kindOf]⟩

/-- Nodes of the kinds of a layout have the layout. -/
theorem Document.WellFormed.laid_of_kindOf {doc : Document} (wellFormed : doc.WellFormed)
    {setup : Setup} {layout : Forest (NodeId × Origin)}
    (holds : doc.Holds (layout.map fun entry => (entry.1, setup.kindOf entry.2)))
    (used : ∀ node ∈ layout.tops, node < doc.size) : doc.Laid layout.tops layout := by
  have tops := Forest.tops_map setup.kindOf layout
  rw [← tops] at used ⊢
  exact wellFormed.laid holds used (setup.sameNode_kindOf layout)

end ViewTemplates
