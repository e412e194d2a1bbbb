import ViewTemplates.Document.Subtree
import ViewTemplates.Proofs.Document.Moves
import ViewTemplates.Proofs.Forest

/-!
The forest below nodes of a well-formed document, without limits: it is the only one that agrees
with the document at every node. The elements in document order are read off it.
-/

namespace ViewTemplates

abbrev Forest.ids (forest : Forest (NodeId × α)) : List NodeId := forest.preorder.map Prod.fst

abbrev Forest.tops (forest : Forest (NodeId × α)) : List NodeId := forest.roots.map Prod.fst

theorem Forest.ids_cons (entry : NodeId × α) (below rest : Forest (NodeId × α)) :
    (Forest.cons entry below rest).ids = entry.1 :: (below.ids ++ rest.ids) := by
  simp [ids, preorder]

theorem Forest.mem_ids_cons {entry : NodeId × α} {below rest : Forest (NodeId × α)}
    {node : NodeId} : node ∈ (Forest.cons entry below rest).ids ↔
      node = entry.1 ∨ node ∈ below.ids ∨ node ∈ rest.ids := by
  rw [ids_cons, List.mem_cons, List.mem_append]

theorem Forest.tops_append (first second : Forest (NodeId × α)) :
    (first ++ second).tops = first.tops ++ second.tops := by
  simp [tops]

theorem Forest.ids_append (first second : Forest (NodeId × α)) :
    (first ++ second).ids = first.ids ++ second.ids := by
  simp [ids]

theorem Forest.tops_map (f : α → β) (forest : Forest (NodeId × α)) :
    (forest.map fun entry => (entry.1, f entry.2)).tops = forest.tops := by
  simp [tops]

theorem Forest.tops_sublist_ids (forest : Forest (NodeId × α)) : forest.tops.Sublist forest.ids :=
  (roots_sublist_preorder forest).map Prod.fst

theorem Forest.tops_subset_ids (forest : Forest (NodeId × α)) {node : NodeId}
    (member : node ∈ forest.tops) : node ∈ forest.ids :=
  (tops_sublist_ids forest).subset member

namespace Document

/-- Every node of the forest has the kind and the children in the document that it has there. -/
def Holds (doc : Document) : Forest (NodeId × NodeKind) → Prop
  | .nil => True
  | .cons entry below rest =>
      doc.kind entry.1 = entry.2 ∧ doc.children entry.1 = below.tops ∧
        doc.Holds below ∧ doc.Holds rest

variable {doc : Document}

theorem Holds.front {first second : Forest (NodeId × NodeKind)}
    (holds : doc.Holds (first ++ second)) : doc.Holds first := by
  induction first with
  | nil => trivial
  | cons entry below rest _ induction =>
      exact ⟨holds.1, holds.2.1, holds.2.2.1, induction holds.2.2.2⟩

theorem Holds.back {first second : Forest (NodeId × NodeKind)}
    (holds : doc.Holds (first ++ second)) : doc.Holds second := by
  induction first with
  | nil => exact holds
  | cons entry below rest _ induction => exact induction holds.2.2.2

/-- The top row determines the forest. -/
theorem Holds.unique {forest other : Forest (NodeId × NodeKind)} (holds : doc.Holds forest)
    (again : doc.Holds other) (tops : forest.tops = other.tops) : forest = other := by
  induction forest generalizing other with
  | nil =>
      cases other with
      | nil => rfl
      | cons => cases tops
  | cons entry below rest inner outer =>
      cases other with
      | nil => cases tops
      | cons otherEntry otherBelow otherRest =>
          obtain ⟨kind, children, belowHolds, restHolds⟩ := holds
          obtain ⟨otherKind, otherChildren, otherBelowHolds, otherRestHolds⟩ := again
          obtain ⟨same, sameRest⟩ := List.cons.inj tops
          have sameEntry : entry = otherEntry :=
            Prod.ext same (by rw [← kind, ← otherKind, same])
          subst sameEntry
          rw [inner belowHolds otherBelowHolds (children.symm.trans otherChildren),
            outer restHolds otherRestHolds sameRest]

section wellFormed
variable (wellFormed : doc.WellFormed)
include wellFormed

theorem WellFormed.holds_forestWithin {limit : Nat} {nodes : List NodeId}
    (enough : ∀ node ∈ nodes, doc.size + 1 < limit + doc.depth node) :
    doc.Holds (doc.forestWithin limit nodes) ∧ (doc.forestWithin limit nodes).tops = nodes := by
  induction limit generalizing nodes with
  | zero =>
      cases nodes with
      | nil => exact ⟨trivial, rfl⟩
      | cons node rest =>
          have bound := enough node List.mem_cons_self
          have depth := wellFormed.depth_le node
          omega
  | succ limit induction =>
      rw [forestWithin]
      induction nodes with
      | nil => exact ⟨trivial, rfl⟩
      | cons node rest later =>
          have deeper : ∀ child ∈ doc.children node, doc.size + 1 < limit + doc.depth child := by
            intro child member
            have bound := enough node List.mem_cons_self
            rw [wellFormed.depth_of_mem_children member]
            omega
          obtain ⟨below, belowTops⟩ := induction deeper
          obtain ⟨restHolds, restTops⟩ :=
            later fun other member => enough other (List.mem_cons_of_mem _ member)
          exact ⟨⟨rfl, belowTops.symm, below, restHolds⟩, congrArg (node :: ·) restTops⟩

theorem WellFormed.holds_forest (nodes : List NodeId) :
    doc.Holds (doc.forest nodes) ∧ (doc.forest nodes).tops = nodes := by
  apply wellFormed.holds_forestWithin
  intro node _
  have positive := doc.depth_pos node
  omega

theorem WellFormed.forest_eq {forest : Forest (NodeId × NodeKind)} (holds : doc.Holds forest) :
    doc.forest forest.tops = forest :=
  (wellFormed.holds_forest _).1.unique holds (wellFormed.holds_forest _).2

end wellFormed

/-! What a change leaves alone. -/

theorem Holds.kept {next : Document} {forest : Forest (NodeId × NodeKind)}
    (holds : doc.Holds forest)
    (kind : ∀ node ∈ forest.ids, next.kind node = doc.kind node)
    (children : ∀ node ∈ forest.ids, next.children node = doc.children node) :
    next.Holds forest := by
  induction forest with
  | nil => trivial
  | cons entry below rest inner outer =>
      obtain ⟨ofKind, ofChildren, belowHolds, restHolds⟩ := holds
      have head : entry.1 ∈ (Forest.cons entry below rest).ids := List.mem_cons_self
      have inBelow : ∀ node ∈ below.ids, node ∈ (Forest.cons entry below rest).ids :=
        fun node member => Forest.mem_ids_cons.mpr (.inr (.inl member))
      have inRest : ∀ node ∈ rest.ids, node ∈ (Forest.cons entry below rest).ids :=
        fun node member => Forest.mem_ids_cons.mpr (.inr (.inr member))
      exact ⟨(kind _ head).trans ofKind, (children _ head).trans ofChildren,
        inner belowHolds (fun node member => kind node (inBelow node member))
          fun node member => children node (inBelow node member),
        outer restHolds (fun node member => kind node (inRest node member))
          fun node member => children node (inRest node member)⟩

/-! Which nodes a forest has. -/

theorem Holds.kind_of_mem {forest : Forest (NodeId × NodeKind)} (holds : doc.Holds forest)
    {entry : NodeId × NodeKind} (member : entry ∈ forest.preorder) :
    doc.kind entry.1 = entry.2 := by
  induction forest with
  | nil => cases member
  | cons first below rest inner outer =>
      obtain ⟨kind, _, belowHolds, restHolds⟩ := holds
      simp only [Forest.preorder, List.mem_cons, List.mem_append] at member
      rcases member with rfl | inside | beside
      · exact kind
      · exact inner belowHolds inside
      · exact outer restHolds beside

theorem Holds.children_sublist {forest : Forest (NodeId × NodeKind)} (holds : doc.Holds forest)
    {node : NodeId} (member : node ∈ forest.ids) : (doc.children node).Sublist forest.ids := by
  induction forest with
  | nil => cases member
  | cons entry below rest inner outer =>
      obtain ⟨_, children, belowHolds, restHolds⟩ := holds
      rw [Forest.mem_ids_cons] at member
      rw [Forest.ids_cons]
      apply List.Sublist.cons
      rcases member with rfl | inside | beside
      · rw [children]
        exact (Forest.tops_sublist_ids below).trans (List.sublist_append_left _ _)
      · exact (inner belowHolds inside).trans (List.sublist_append_left _ _)
      · exact (outer restHolds beside).trans (List.sublist_append_right _ _)

theorem Holds.exists_below {forest : Forest (NodeId × NodeKind)} (wellFormed : doc.WellFormed)
    (holds : doc.Holds forest) {node : NodeId} (member : node ∈ forest.ids) :
    ∃ top ∈ forest.tops, doc.Below node top := by
  induction forest with
  | nil => cases member
  | cons entry below rest inner outer =>
      obtain ⟨_, children, belowHolds, restHolds⟩ := holds
      rw [Forest.mem_ids_cons] at member
      rcases member with rfl | inside | beside
      · exact ⟨entry.1, List.mem_cons_self, .refl⟩
      · obtain ⟨child, childMember, lower⟩ := inner belowHolds inside
        rw [← children] at childMember
        exact ⟨entry.1, List.mem_cons_self, lower.tail (wellFormed.parent_of_mem childMember)⟩
      · obtain ⟨top, topMember, lower⟩ := outer restHolds beside
        exact ⟨top, List.mem_cons_of_mem _ topMember, lower⟩

theorem Holds.mem_ids_of_below {forest : Forest (NodeId × NodeKind)} (wellFormed : doc.WellFormed)
    (holds : doc.Holds forest) {top node : NodeId} (member : top ∈ forest.ids)
    (below : doc.Below node top) : node ∈ forest.ids := by
  induction below using Relation.ReflTransGen.head_induction_on with
  | refl => exact member
  | head attached _ induction =>
      exact (holds.children_sublist induction).subset (wellFormed.mem_of_parent attached)

theorem comparable {node left right : NodeId} (toLeft : doc.Below node left)
    (toRight : doc.Below node right) : doc.Below left right ∨ doc.Below right left := by
  refine Relation.ReflTransGen.total_of_right_unique ?_ toLeft toRight
  intro child parent other attached again
  exact Option.some.inj (attached.symm.trans again)

theorem WellFormed.apart_children (wellFormed : doc.WellFormed) (node : NodeId) :
    doc.Apart (doc.children node) := by
  refine (wellFormed.nodup node).imp_of_mem fun {left right} leftMember rightMember different => ?_
  have level : doc.depth left = doc.depth right := by
    rw [wellFormed.depth_of_mem_children leftMember, wellFormed.depth_of_mem_children rightMember]
  exact ⟨fun below => different (wellFormed.below_unique .refl below level),
    fun below => different (wellFormed.below_unique below .refl level)⟩

theorem Holds.nodup_ids {forest : Forest (NodeId × NodeKind)} (wellFormed : doc.WellFormed)
    (holds : doc.Holds forest) (apart : doc.Apart forest.tops) : forest.ids.Nodup := by
  induction forest with
  | nil => exact .nil
  | cons entry below rest inner outer =>
      obtain ⟨_, children, belowHolds, restHolds⟩ := holds
      obtain ⟨apartHead, apartRest⟩ := List.pairwise_cons.mp apart
      have lower {node : NodeId} (member : node ∈ below.ids) : doc.Under node entry.1 := by
        obtain ⟨child, childMember, path⟩ := belowHolds.exists_below wellFormed member
        rw [← children] at childMember
        exact .tail' path (wellFormed.parent_of_mem childMember)
      have separate {node : NodeId} (high : doc.Below node entry.1) : node ∉ rest.ids := by
        intro beside
        obtain ⟨top, topMember, path⟩ := restHolds.exists_below wellFormed beside
        rcases comparable high path with under | above
        · exact (apartHead top topMember).1 under
        · exact (apartHead top topMember).2 above
      rw [Forest.ids_cons, List.nodup_cons, List.mem_append, not_or, List.nodup_append]
      refine ⟨⟨fun inside => ?_, separate .refl⟩, inner belowHolds ?_, outer restHolds apartRest,
        fun node inside other beside same => ?_⟩
      · exact wellFormed.acyclic _ (lower inside)
      · rw [← children]
        exact wellFormed.apart_children entry.1
      · exact separate (lower inside).to_reflTransGen (same ▸ beside)

theorem Holds.ids_lt_size {forest : Forest (NodeId × NodeKind)} (wellFormed : doc.WellFormed)
    (holds : doc.Holds forest) (used : ∀ node ∈ forest.tops, node < doc.size) :
    ∀ node ∈ forest.ids, node < doc.size := by
  induction forest with
  | nil => exact nofun
  | cons entry below rest inner outer =>
      obtain ⟨_, children, belowHolds, restHolds⟩ := holds
      intro node member
      rw [Forest.mem_ids_cons] at member
      rcases member with rfl | inside | beside
      · exact used _ List.mem_cons_self
      · refine inner belowHolds (fun child childMember => ?_) node inside
        rw [← children] at childMember
        exact wellFormed.child_lt_size childMember
      · exact outer restHolds (fun top topMember => used top (List.mem_cons_of_mem _ topMember))
          node beside

/-! Elements in document order. -/

def elementsOf (forest : Forest (NodeId × NodeKind)) : List NodeId :=
  (forest.preorder.filter fun entry => entry.2.isElement).map Prod.fst

theorem Holds.elementsWithin_eq {forest : Forest (NodeId × NodeKind)} (holds : doc.Holds forest)
    (limit : Nat) (stack : List NodeId) :
    doc.elementsWithin (forest.preorder.length + limit) (forest.tops ++ stack) =
      elementsOf forest ++ doc.elementsWithin limit stack := by
  induction forest generalizing limit stack with
  | nil => rw [Forest.preorder, List.length_nil, Nat.zero_add]; rfl
  | cons entry below rest inner outer =>
      obtain ⟨kind, children, belowHolds, restHolds⟩ := holds
      have count : (Forest.cons entry below rest).preorder.length + limit =
          (below.preorder.length + (rest.preorder.length + limit)) + 1 := by
        simp only [Forest.preorder, List.length_cons, List.length_append]
        omega
      have visited : doc.elementsWithin (below.preorder.length + (rest.preorder.length + limit))
          (doc.children entry.1 ++ (rest.tops ++ stack)) =
          elementsOf below ++ (elementsOf rest ++ doc.elementsWithin limit stack) := by
        rw [children, inner belowHolds, outer restHolds]
      change doc.elementsWithin _ (entry.1 :: (rest.tops ++ stack)) = _
      rw [count, elementsWithin, visited, isElement, kind]
      cases element : entry.2.isElement <;>
        simp [elementsOf, Forest.preorder, element]

theorem elementsWithin_nil (limit : Nat) : doc.elementsWithin limit [] = [] := by
  cases limit <;> rfl

/-- The forest below nodes in use is within the limit of a walk. -/
theorem Holds.length_preorder_le {forest : Forest (NodeId × NodeKind)}
    (wellFormed : doc.WellFormed) (holds : doc.Holds forest)
    (used : ∀ node ∈ forest.tops, node < doc.size) :
    forest.preorder.length ≤ forest.tops.length * doc.size := by
  induction forest with
  | nil => exact Nat.zero_le _
  | cons entry below rest _ outer =>
      obtain ⟨kind, children, belowHolds, restHolds⟩ := holds
      have tree : doc.Holds (.tree entry below) := ⟨kind, children, belowHolds, trivial⟩
      have usedTop : ∀ node ∈ (Forest.tree entry below).tops, node < doc.size := by
        intro node member
        rw [List.mem_singleton.mp member]
        exact used _ List.mem_cons_self
      have inside : (Forest.tree entry below).ids ⊆ List.range doc.size := fun node member =>
        List.mem_range.mpr (tree.ids_lt_size wellFormed usedTop node member)
      have bounded :=
        (tree.nodup_ids wellFormed (List.pairwise_singleton _ _)).length_le_of_subset inside
      have later := outer restHolds fun node member => used node (List.mem_cons_of_mem _ member)
      simp only [Forest.ids, Forest.preorder, List.length_map, List.length_cons,
        List.length_append, List.length_nil, List.length_range, Forest.tops, Forest.roots] at *
      rw [Nat.succ_mul]
      omega

theorem WellFormed.elementsInOrder_eq (wellFormed : doc.WellFormed) {nodes : List NodeId}
    (used : ∀ node ∈ nodes, node < doc.size) :
    doc.elementsInOrder nodes = elementsOf (doc.forest nodes) := by
  obtain ⟨holds, tops⟩ := wellFormed.holds_forest nodes
  have bounded := holds.length_preorder_le wellFormed (tops.symm ▸ used)
  rw [tops] at bounded
  obtain ⟨extra, enough⟩ :=
    Nat.exists_eq_add_of_le (Nat.le_succ_of_le bounded)
  have walk := holds.elementsWithin_eq extra []
  rw [tops, List.append_nil, elementsWithin_nil, List.append_nil, ← enough] at walk
  exact walk

/-! Forests without fragments. -/

theorem WellFormed.lt_size_of_fragmentFree (wellFormed : doc.WellFormed) {nodes : List NodeId}
    (fragmentFree : ∀ kind ∈ (doc.kinds nodes).preorder, kind ≠ .fragment) :
    ∀ node ∈ nodes, node < doc.size := by
  intro node member
  obtain ⟨holds, tops⟩ := wellFormed.holds_forest nodes
  rw [← tops] at member
  obtain ⟨entry, root, rfl⟩ := List.mem_map.mp member
  have visited := (Forest.roots_sublist_preorder _).subset root
  have kind := holds.kind_of_mem visited
  apply Decidable.byContradiction
  intro unused
  rw [kind_of_size_le (Nat.le_of_not_lt unused)] at kind
  refine fragmentFree entry.2 ?_ kind.symm
  rw [kinds, Forest.preorder_map]
  exact List.mem_map.mpr ⟨entry, visited, rfl⟩

/-- Below a node that is neither an element nor a fragment there is nothing. -/
theorem Holds.bare {forest : Forest (NodeId × NodeKind)} (wellFormed : doc.WellFormed)
    (holds : doc.Holds forest)
    (fragmentFree : ∀ kind ∈ (forest.map Prod.snd).preorder, kind ≠ .fragment) :
    (forest.map Prod.snd).Bare NodeKind.isElement := by
  induction forest with
  | nil => trivial
  | cons entry below rest inner outer =>
      obtain ⟨kind, children, belowHolds, restHolds⟩ := holds
      simp only [Forest.map, Forest.preorder, List.mem_cons, List.mem_append] at fragmentFree
      refine ⟨fun leaf => ?_,
        inner belowHolds fun kind member => fragmentFree kind (.inr (.inl member)),
        outer restHolds fun kind member => fragmentFree kind (.inr (.inr member))⟩
      have whole := fragmentFree entry.2 (.inl rfl)
      have bottom : (doc.kind entry.1).isContainer = false := by
        rw [kind]
        cases other : entry.2 with
        | fragment => exact absurd other whole
        | element =>
            rw [other] at leaf
            cases leaf
        | text => rfl
        | comment => rfl
      rw [wellFormed.leaf entry.1 bottom] at children
      cases below with
      | nil => rfl
      | cons => cases children

end Document

end ViewTemplates
