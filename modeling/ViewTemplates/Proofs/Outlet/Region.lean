import ViewTemplates.Proofs.Outlet.Placement
import ViewTemplates.Proofs.Outlet.Sequence

/-!
The region of an outlet: in front of the anchor stand the nodes of the inserted views, in the order
of the sequence, and every call keeps it so. The sequence and the child list of the anchor's parent
are changed by separate code, a view at a time and a node at a time.
-/

namespace ViewTemplates

/-- Node lists of views that are in use, without repetition and apart from each other. -/
structure Family (size : Nat) (nodesOf : ViewId → List NodeId) : Prop where
  used : ∀ id, ∀ node ∈ nodesOf id, node < size
  nodup : ∀ id, (nodesOf id).Nodup
  disjoint : ∀ left right, left ≠ right → (nodesOf left).Disjoint (nodesOf right)

theorem Family.notMem_nodes {size : Nat} {nodesOf : ViewId → List NodeId}
    (family : Family size nodesOf) {view : View} (nodes : nodesOf view.id = view.nodes)
    {row : List ViewId} (absent : view.id ∉ row) :
    ∀ node ∈ row.flatMap nodesOf, node ∉ view.nodes := by
  intro node shown inside
  obtain ⟨id, present, belongs⟩ := List.mem_flatMap.mp shown
  have different : id ≠ view.id := fun equality => absent (equality ▸ present)
  exact family.disjoint id view.id different belongs (nodes ▸ inside)

/-- The children of the parent are the nodes of the views in sequence and the anchor, between nodes
that belong to no inserted view. -/
structure Region (state : OutletState) (nodesOf : ViewId → List NodeId) (parent : NodeId)
    (sequence : List ViewId) (front back : List NodeId) : Prop where
  wellFormed : state.doc.WellFormed
  family : Family state.doc.size nodesOf
  sequenced : state.outlet.Sequenced nodesOf sequence
  children : state.doc.children parent =
    front ++ sequence.flatMap nodesOf ++ state.outlet.anchor :: back

/-- What stays as it is when only the given nodes move, to or from one parent. -/
structure Steady (state next : OutletState) (parent : NodeId) (nodes : List NodeId) : Prop where
  anchor : next.outlet.anchor = state.outlet.anchor
  size : next.doc.size = state.doc.size
  kind : ∀ other, next.doc.kind other = state.doc.kind other
  children : ∀ other, other ≠ parent →
    (∀ node ∈ nodes, state.doc.parent? node ≠ some other) →
    next.doc.children other = state.doc.children other

theorem Steady.refl (state : OutletState) (parent : NodeId) (nodes : List NodeId) :
    Steady state state parent nodes where
  anchor := rfl
  size := rfl
  kind := fun _ => rfl
  children := fun _ _ _ => rfl

theorem Steady.trans {state middle next : OutletState} {parent : NodeId} {nodes : List NodeId}
    (first : Steady state middle parent nodes) (second : Steady middle next parent nodes)
    (fewer : ∀ child above, middle.doc.ChildOf child above → state.doc.ChildOf child above) :
    Steady state next parent nodes where
  anchor := second.anchor.trans first.anchor
  size := second.size.trans first.size
  kind := fun other => (second.kind other).trans (first.kind other)
  children := by
    intro other apart elsewhere
    rw [second.children other apart, first.children other apart elsewhere]
    exact fun node member attached => elsewhere node member (fewer node other attached)

theorem filter_notMem_eq_self {row nodes : List NodeId} (apart : ∀ node ∈ row, node ∉ nodes) :
    row.filter (· ∉ nodes) = row :=
  List.filter_eq_self.mpr fun node member => by simpa using apart node member

theorem filter_children_eq_self {doc : Document} (wellFormed : doc.WellFormed)
    {nodes : List NodeId} {other : NodeId}
    (elsewhere : ∀ node ∈ nodes, doc.parent? node ≠ some other) :
    (doc.children other).filter (· ∉ nodes) = doc.children other :=
  filter_notMem_eq_self fun node child inside =>
    elsewhere node inside (wellFormed.parent_of_mem child)

def OutletState.without (state : OutletState) (view : View) (link : Link) : OutletState :=
  ⟨view.nodes.foldl Document.remove state.doc, state.outlet.unlink view.id link⟩

theorem OutletState.anchor_without (state : OutletState) (view : View) (link : Link) :
    (state.without view link).outlet.anchor = state.outlet.anchor := by
  simp [without, Outlet.unlink]

namespace Region

variable {state : OutletState} {nodesOf : ViewId → List NodeId} {parent : NodeId}
  {sequence : List ViewId} {front back : List NodeId} {view : View}

theorem anchor_parent (region : Region state nodesOf parent sequence front back) :
    state.doc.parent? state.outlet.anchor = some parent := by
  apply region.wellFormed.parent_of_mem
  rw [region.children]
  simp

theorem notMem_nodesOf (region : Region state nodesOf parent sequence front back) {id : ViewId}
    (member : id ∈ sequence) {node : NodeId}
    (other : node ∈ front ∨ node ∈ state.outlet.anchor :: back) : node ∉ nodesOf id := by
  intro inside
  have shown : node ∈ sequence.flatMap nodesOf := List.mem_flatMap.mpr ⟨id, member, inside⟩
  have distinct := region.wellFormed.nodup parent
  rw [region.children, List.nodup_append, List.nodup_append] at distinct
  rcases other with early | late
  · exact distinct.1.2.2 node early node shown rfl
  · exact distinct.2.2 node (List.mem_append_right _ shown) node late rfl

theorem filter_foreign (region : Region state nodesOf parent sequence front back)
    (member : view.id ∈ sequence) (nodes : nodesOf view.id = view.nodes) {row : List NodeId}
    (outside : ∀ node ∈ row, node ∈ front ∨ node ∈ state.outlet.anchor :: back) :
    row.filter (· ∉ view.nodes) = row := by
  apply filter_notMem_eq_self
  intro node shown
  rw [← nodes]
  exact region.notMem_nodesOf member (outside node shown)

theorem without_steady (region : Region state nodesOf parent sequence front back)
    (link : Link) : Steady state (state.without view link) parent view.nodes where
  anchor := OutletState.anchor_without state view link
  size := Document.size_foldl_remove _ _
  kind := Document.kind_foldl_remove _ _
  children := by
    intro other _ elsewhere
    rw [OutletState.without, region.wellFormed.children_foldl_remove,
      filter_children_eq_self region.wellFormed elsewhere]

theorem without_region {left right : List ViewId}
    (region : Region state nodesOf parent (left ++ view.id :: right) front back)
    (nodes : nodesOf view.id = view.nodes) {link : Link}
    (found : state.outlet.links.get? view.id = some link) :
    Region (state.without view link) nodesOf parent (left ++ right) front back where
  wellFormed := region.wellFormed.foldl_remove _
  family := by simpa [OutletState.without] using region.family
  sequenced := region.sequenced.unlink rfl found
  children := by
    have distinct := region.sequenced.nodup
    have absent : view.id ∉ left ∧ view.id ∉ right := by
      grind [List.nodup_append, List.nodup_cons]
    have member : view.id ∈ left ++ view.id :: right := by simp
    rw [OutletState.anchor_without, OutletState.without,
      region.wellFormed.children_foldl_remove, region.children]
    simp only [List.flatMap_append, List.flatMap_cons, List.filter_append]
    rw [region.filter_foreign member nodes fun _ => .inl,
      region.filter_foreign member nodes fun _ => .inr, nodes,
      filter_notMem_eq_self (region.family.notMem_nodes nodes absent.1),
      filter_notMem_eq_self (region.family.notMem_nodes nodes absent.2)]
    have gone : view.nodes.filter (· ∉ view.nodes) = [] := by simp
    rw [gone, List.nil_append]

/-- Detaching takes a view out of the sequence, and its nodes from their parent. -/
theorem detach (region : Region state nodesOf parent sequence front back)
    (nodes : nodesOf view.id = view.nodes) :
    ∃ next, Outlet.detach view state = .ok () next ∧
      Region next nodesOf parent (sequence.erase view.id) front back ∧
      Steady state next parent view.nodes ∧
      (∀ child above, next.doc.ChildOf child above → state.doc.ChildOf child above) ∧
      (view.id ∈ sequence → ∀ node ∈ view.nodes, next.doc.parent? node = none) := by
  by_cases member : view.id ∈ sequence
  case neg =>
    refine ⟨state, ?_, ?_, .refl state parent _, fun _ _ attached => attached,
      fun present => absurd present member⟩
    · rw [Outlet.detach, get_bind, region.sequenced.get?_eq_none member]
      rfl
    · rw [List.erase_of_not_mem member]
      exact region
  case pos =>
    obtain ⟨left, right, rfl⟩ := List.append_of_mem member
    have found := region.sequenced.link left view.id right rfl
    have absent : view.id ∉ left := by
      have distinct := region.sequenced.nodup
      grind [List.nodup_append]
    rw [List.erase_append_right _ absent, List.erase_cons_head]
    refine ⟨state.without view _, ?_, region.without_region nodes found,
      region.without_steady _, ?_, ?_⟩
    · rw [Outlet.detach, get_bind, found]
      simp only [nodes]
      rfl
    · intro child above attached
      rw [Document.ChildOf, OutletState.without, Document.parent?_foldl_remove] at attached
      split at attached
      · cases attached
      · exact attached
    · intro _ node inside
      rw [OutletState.without, Document.parent?_foldl_remove, if_pos inside]

/-- The views behind a place and the anchor begin with the node in front of which a view is put. -/
theorem behind_eq (sequenced : state.outlet.Sequenced nodesOf sequence) {left right : List ViewId}
    (split : sequence = left ++ right) :
    ∃ others, right.flatMap nodesOf ++ [state.outlet.anchor] =
      state.outlet.nodeBehind right.head? :: others := by
  rw [sequenced.nodeBehind_eq split]
  cases right.flatMap nodesOf with
  | nil => exact ⟨[], rfl⟩
  | cons node rest => exact ⟨rest ++ [state.outlet.anchor], rfl⟩

/-- A view that is not in the sequence and passes the checks goes in between two neighbours. -/
theorem insertBetween {left right : List ViewId}
    (region : Region state nodesOf parent (left ++ right) front back)
    (nodes : nodesOf view.id = view.nodes) (absent : view.id ∉ left ++ right)
    (notBelow : ∀ node ∈ view.nodes, ¬state.doc.Below parent node)
    (foreign : state.outlet.anchor ∉ view.nodes) :
    ∃ next, Outlet.insertBetween view left.getLast? right.head? state = .ok () next ∧
      Region next nodesOf parent (left ++ view.id :: right)
        (front.filter (· ∉ view.nodes)) (back.filter (· ∉ view.nodes)) ∧
      Steady state next parent view.nodes := by
  obtain ⟨others, behind⟩ := behind_eq region.sequenced rfl
  rw [List.mem_append, not_or] at absent
  have tail : ∀ node ∈ state.outlet.nodeBehind right.head? :: others, node ∉ view.nodes := by
    intro node member
    rw [← behind, List.mem_append, List.mem_singleton] at member
    rcases member with shown | rfl
    · exact region.family.notMem_nodes nodes absent.2 node shown
    · exact foreign
  have row : state.doc.children parent = (front ++ left.flatMap nodesOf) ++
      state.outlet.nodeBehind right.head? :: (others ++ back) := by
    calc
      state.doc.children parent = (front ++ left.flatMap nodesOf) ++
          ((right.flatMap nodesOf ++ [state.outlet.anchor]) ++ back) := by
        rw [region.children]
        simp
      _ = _ := by rw [behind, List.cons_append]
  have placeable : state.doc.Placeable parent (state.outlet.nodeBehind right.head?)
      view.nodes := {
    sibling := region.wellFormed.parent_of_mem (by rw [row]; simp)
    absent := tail _ List.mem_cons_self
    nodup := nodes ▸ region.family.nodup view.id
    used := nodes ▸ region.family.used view.id
    notBelow := notBelow }
  obtain ⟨doc, run, wellFormed, size, kind, children, elsewhere⟩ :=
    Outlet.insertNodes_eq region.wellFormed placeable row
  refine ⟨⟨doc, state.outlet.link view left.getLast? right.head?⟩, ?_, ⟨wellFormed, ?_, ?_, ?_⟩,
    ⟨?_, size, kind, ?_⟩⟩
  · rw [Outlet.insertBetween, get_bind, region.anchor_parent]
    simp only
    rw [bind_of_ok run]
    rfl
  · simpa [size] using region.family
  · exact region.sequenced.link_between (by simpa using absent) nodes
  · have anchor : (state.outlet.link view left.getLast? right.head?).anchor =
        state.outlet.anchor := by simp [Outlet.link]
    have later : (others ++ back).filter (· ∉ view.nodes) =
        others ++ back.filter (· ∉ view.nodes) := by
      rw [List.filter_append, filter_notMem_eq_self fun node member =>
        tail node (List.mem_cons_of_mem _ member)]
    calc
      doc.children parent =
          (front.filter (· ∉ view.nodes) ++ left.flatMap nodesOf) ++ view.nodes ++
            ((state.outlet.nodeBehind right.head? :: others) ++
              back.filter (· ∉ view.nodes)) := by
        rw [children, later, List.filter_append,
          filter_notMem_eq_self (region.family.notMem_nodes nodes absent.1), List.cons_append]
      _ = _ := by
        rw [← behind, anchor]
        simp [nodes]
  · simp [Outlet.link]
  · intro other apart foreignNodes
    rw [elsewhere other apart, filter_children_eq_self region.wellFormed foreignNodes]

end Region

end ViewTemplates
