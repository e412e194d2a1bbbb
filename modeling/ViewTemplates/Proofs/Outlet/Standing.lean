import ViewTemplates.Proofs.Outlet.Failures
import ViewTemplates.Proofs.Outlet.Shifts

/-!
Where the nodes shown by an outlet stand when other nodes may stand between them: in their order in
front of the anchor, and directly in front of it if there are no others. A call on the outlet keeps
either.
-/

namespace ViewTemplates

open Document

/-- Node lists of views, without repetition and apart from each other. -/
structure Separate (nodesOf : ViewId → List NodeId) : Prop where
  nodup : ∀ id, (nodesOf id).Nodup
  disjoint : ∀ left right, left ≠ right → (nodesOf left).Disjoint (nodesOf right)

namespace Outlet

/-- The nodes of the views, in the order of the sequence. -/
def shown (outlet : Outlet) (nodesOf : ViewId → List NodeId) : List NodeId :=
  outlet.views.flatMap nodesOf

/-- The shown nodes and the anchor behind them. -/
def stretch (outlet : Outlet) (nodesOf : ViewId → List NodeId) : List NodeId :=
  outlet.shown nodesOf ++ [outlet.anchor]

/-- If nodes are shown, they and the anchor are in this relation to the siblings of the anchor. -/
def Stands (outlet : Outlet) (relation : List NodeId → List NodeId → Prop)
    (nodesOf : ViewId → List NodeId) (doc : Document) : Prop :=
  outlet.shown nodesOf ≠ [] → relation (outlet.stretch nodesOf) (doc.siblings outlet.anchor)

instance (outlet : Outlet) (relation : List NodeId → List NodeId → Prop) [DecidableRel relation]
    (nodesOf : ViewId → List NodeId) (doc : Document) :
    Decidable (outlet.Stands relation nodesOf doc) :=
  inferInstanceAs (Decidable (_ → _))

/-- The shown nodes are siblings in front of the anchor, in their order. -/
def Precedes (outlet : Outlet) (nodesOf : ViewId → List NodeId) (doc : Document) : Prop :=
  outlet.Stands List.Sublist nodesOf doc

/-- The shown nodes are the siblings directly in front of the anchor, in their order. -/
def Adjoins (outlet : Outlet) (nodesOf : ViewId → List NodeId) (doc : Document) : Prop :=
  outlet.Stands List.IsInfix nodesOf doc

instance (outlet : Outlet) (nodesOf : ViewId → List NodeId) (doc : Document) :
    Decidable (outlet.Precedes nodesOf doc) :=
  inferInstanceAs (Decidable (outlet.Stands _ _ _))

instance (outlet : Outlet) (nodesOf : ViewId → List NodeId) (doc : Document) :
    Decidable (outlet.Adjoins nodesOf doc) :=
  inferInstanceAs (Decidable (outlet.Stands _ _ _))

end Outlet

/-- A relation of blocks to rows that removals and insertions in front of a member keep. -/
structure Standing (relation : List NodeId → List NodeId → Prop) : Prop where
  sublist : ∀ {block row}, relation block row → block.Sublist row
  single : ∀ {node row}, node ∈ row → relation [node] row
  filter : ∀ {block row} (keep : NodeId → Bool), relation block row →
    relation (block.filter keep) (row.filter keep)
  insert : ∀ {left right front back before} (nodes : List NodeId),
    (front ++ before :: back).Nodup →
    relation (left ++ before :: right) (front ++ before :: back) →
    relation (left ++ nodes ++ before :: right) (front ++ nodes ++ before :: back)

theorem standing_sublist : Standing List.Sublist where
  sublist := id
  single := List.singleton_sublist.mpr
  filter := fun _ order => order.filter _
  insert := by
    intro left right front back before nodes distinct order
    have apart : before ∉ front ∧ before ∉ back := by
      grind [List.nodup_append, List.nodup_cons]
    obtain ⟨early, late, split, first, second⟩ := List.sublist_append_iff.mp order
    rcases List.append_eq_append_iff.mp split with ⟨gap, rfl, rest⟩ | ⟨gap, rfl, rfl⟩
    case inl =>
      have behind : gap = [] := by
        cases gap with
        | nil => rfl
        | cons node others =>
            obtain ⟨rfl, -⟩ := List.cons.inj rest
            exact absurd (first.subset (by simp)) apart.1
      subst behind
      rw [List.nil_append] at rest
      rw [List.append_nil] at first
      exact (first.append (.refl nodes)).append (rest ▸ second)
    case inr =>
      have behind : gap = [] := by
        cases gap with
        | nil => rfl
        | cons node others =>
            have inner : (others ++ before :: right).Sublist back := second.tail
            exact absurd (inner.subset (by simp)) apart.2
      subst behind
      rw [List.append_nil]
      exact (first.append (.refl nodes)).append second

theorem standing_isInfix : Standing List.IsInfix where
  sublist := fun side => side.sublist
  single := by
    intro node row member
    obtain ⟨front, back, rfl⟩ := List.append_of_mem member
    exact ⟨front, back, by simp⟩
  filter := fun _ side => side.filter _
  insert := by
    rintro left right front back before nodes distinct ⟨early, late, row⟩
    have apart : before ∉ front ∧ before ∉ back := by
      grind [List.nodup_append, List.nodup_cons]
    have aligned : front ++ before :: back = (early ++ left) ++ before :: (right ++ late) := by
      rw [← row]
      simp
    obtain ⟨rfl, -, rfl⟩ := (List.append_cons_inj_of_notMem apart.1 apart.2).mp aligned
    exact ⟨early, late, by simp⟩

theorem Separate.flatMap_erase {nodesOf : ViewId → List NodeId} (separate : Separate nodesOf)
    {sequence : List ViewId} (distinct : sequence.Nodup) (id : ViewId) :
    (sequence.erase id).flatMap nodesOf =
      (sequence.flatMap nodesOf).filter (· ∉ nodesOf id) := by
  have stays {other : ViewId} (different : other ≠ id) :
      (nodesOf other).filter (· ∉ nodesOf id) = nodesOf other :=
    filter_notMem_eq_self fun _ member => separate.disjoint other id different member
  induction sequence with
  | nil => rfl
  | cons first rest induction =>
      obtain ⟨absent, distinct⟩ := List.nodup_cons.mp distinct
      rw [List.flatMap_cons, List.filter_append, ← induction distinct]
      by_cases same : first = id
      · subst same
        have gone : (nodesOf first).filter (· ∉ nodesOf first) = [] := by simp
        rw [List.erase_cons_head, gone, List.nil_append, List.erase_of_not_mem absent]
      · rw [List.erase_cons_tail (by simpa using same), List.flatMap_cons, stays same]

theorem OutletState.filter_children_taken {state : OutletState}
    (wellFormed : state.doc.WellFormed) (view : View) (parent : NodeId) :
    ((state.taken view).doc.children parent).filter (· ∉ view.nodes) =
      (state.doc.children parent).filter (· ∉ view.nodes) := by
  rcases state.taken_eq_or view with same | removed
  · rw [same]
  · rw [removed, wellFormed.children_foldl_remove, List.filter_filter]
    simp

theorem Outlet.Sequenced.doc_taken {state : OutletState} {nodesOf : ViewId → List NodeId}
    {sequence : List ViewId} (sequenced : state.outlet.Sequenced nodesOf sequence) {view : View}
    (member : view.id ∈ sequence) :
    (state.taken view).doc = view.nodes.foldl Document.remove state.doc := by
  obtain ⟨left, right, split⟩ := List.append_of_mem member
  rw [OutletState.taken, sequenced.link left view.id right split]
  rfl

namespace OutletCall

section own
variable {relation : List NodeId → List NodeId → Prop} (standing : Standing relation)
  {state : OutletState} {nodesOf : ViewId → List NodeId} {sequence : List ViewId} {view : View}
  (separate : Separate nodesOf) (wellFormed : state.doc.WellFormed)
  (sequenced : state.outlet.Sequenced nodesOf sequence) (nodes : nodesOf view.id = view.nodes)
  (stands : state.outlet.Stands relation nodesOf state.doc)
include separate sequenced nodes


theorem stretch_taken (foreign : state.outlet.anchor ∉ view.nodes) :
    (state.taken view).outlet.stretch nodesOf =
      (state.outlet.stretch nodesOf).filter (· ∉ view.nodes) := by
  rw [Outlet.stretch, Outlet.stretch, Outlet.shown, Outlet.shown, (sequenced.taken view).views_eq,
    sequenced.views_eq, state.anchor_taken, separate.flatMap_erase sequenced.nodup, nodes,
    List.filter_append, List.filter_cons_of_pos (by simpa using foreign), List.filter_nil]

include standing wellFormed stands

/-- Without the nodes of the view, what was shown stands as it did. -/
theorem filter_stands {parent : NodeId}
    (attached : state.doc.parent? state.outlet.anchor = some parent)
    (foreign : state.outlet.anchor ∉ view.nodes) :
    relation ((state.taken view).outlet.stretch nodesOf)
      ((state.doc.children parent).filter (· ∉ view.nodes)) := by
  rw [stretch_taken separate sequenced nodes foreign]
  apply standing.filter
  by_cases empty : state.outlet.shown nodesOf = []
  · rw [Outlet.stretch, empty]
    exact standing.single (wellFormed.mem_of_parent attached)
  · rw [← siblings_eq attached]
    exact stands empty

theorem stands_taken (member : view.id ∈ sequence) :
    (state.taken view).outlet.Stands relation nodesOf (state.taken view).doc := by
  intro more
  have subset : ∀ node ∈ view.nodes, node ∈ state.outlet.shown nodesOf := by
    intro node inside
    rw [Outlet.shown, sequenced.views_eq]
    exact List.mem_flatMap.mpr ⟨view.id, member, nodes ▸ inside⟩
  have shown : state.outlet.shown nodesOf ≠ [] := by
    intro empty
    apply more
    rw [Outlet.shown, (sequenced.taken view).views_eq, separate.flatMap_erase sequenced.nodup,
      ← sequenced.views_eq, ← Outlet.shown, empty, List.filter_nil]
  have order := standing.sublist (stands shown)
  cases attached : state.doc.parent? state.outlet.anchor with
  | none =>
      rw [siblings, attached] at order
      simp [Outlet.stretch] at order
  | some parent =>
      rw [siblings_eq attached] at order
      have foreign : state.outlet.anchor ∉ view.nodes := by
        intro inside
        have distinct := order.nodup (wellFormed.nodup parent)
        rw [Outlet.stretch, List.nodup_append] at distinct
        exact distinct.2.2 _ (subset _ inside) _ (List.mem_singleton_self _) rfl
      have still := (state.parent?_taken_of_notMem view foreign).trans attached
      rw [← state.anchor_taken view] at still
      rw [siblings_eq still, sequenced.doc_taken member, wellFormed.children_foldl_remove]
      exact filter_stands standing separate wellFormed sequenced nodes stands attached foreign

theorem stands_placed {left right : List ViewId} {parent : NodeId}
    (split : sequence.erase view.id = left ++ right)
    (fits : Outlet.Insertable state parent view)
    (used : ∀ node ∈ view.nodes, node < state.doc.size) :
    ∃ next, Outlet.insertBetween view left.getLast? right.head? (state.taken view) = .ok () next ∧
      next.outlet.Stands relation nodesOf next.doc := by
  have taken := sequenced.taken view
  rw [split] at taken
  have block := filter_stands standing separate wellFormed sequenced nodes stands fits.attached
    fits.foreign
  obtain ⟨others, behind⟩ := Region.behind_eq taken rfl
  rw [Outlet.stretch, Outlet.shown, taken.views_eq, List.flatMap_append, List.append_assoc,
    behind] at block
  have target := (standing.sublist block).subset (List.mem_append_right _ List.mem_cons_self)
  obtain ⟨sibling, absent⟩ := List.mem_filter.mp target
  rw [decide_eq_true_eq] at absent
  have middle := state.wellFormed_taken view wellFormed
  have placeable : (state.taken view).doc.Placeable parent
      ((state.taken view).outlet.nodeBehind right.head?) view.nodes := {
    sibling :=
      (state.parent?_taken_of_notMem view absent).trans (wellFormed.parent_of_mem sibling)
    absent := absent
    nodup := nodes ▸ separate.nodup view.id
    used := by simpa [state.size_taken] using used
    notBelow := fits.notBelow_taken wellFormed }
  obtain ⟨front, back, row⟩ := List.append_of_mem (middle.mem_of_parent placeable.sibling)
  obtain ⟨doc, run, docWellFormed, -, -, children, -⟩ :=
    Outlet.insertNodes_eq middle placeable row
  refine ⟨⟨doc, (state.taken view).outlet.link view left.getLast? right.head?⟩, ?_, fun _ => ?_⟩
  · rw [Outlet.insertBetween, get_bind, fits.taken]
    simp only
    rw [bind_of_ok run]
    rfl
  · have linked := taken.link_between (split ▸ sequenced.nodup.not_mem_erase) nodes
    have anchor : ((state.taken view).outlet.link view left.getLast? right.head?).anchor =
        (state.taken view).outlet.anchor := by simp [Outlet.link]
    have bare : front.filter (· ∉ view.nodes) ++
        (state.taken view).outlet.nodeBehind right.head? :: back.filter (· ∉ view.nodes) =
          (state.doc.children parent).filter (· ∉ view.nodes) := by
      rw [← List.filter_cons_of_pos (by simpa using absent), ← List.filter_append, ← row,
        OutletState.filter_children_taken wellFormed]
    have placed : relation
        (((state.taken view).outlet.link view left.getLast? right.head?).stretch nodesOf)
        (doc.children parent) := by
      rw [Outlet.stretch, Outlet.shown, linked.views_eq, anchor, children, List.flatMap_append,
        List.flatMap_cons, nodes, List.append_assoc, List.append_assoc, behind, ← List.append_assoc]
      apply standing.insert
      · rw [bare]
        exact (wellFormed.nodup parent).filter _
      · rw [bare]
        exact block
    have inside : ((state.taken view).outlet.link view left.getLast? right.head?).anchor ∈
        doc.children parent :=
      (standing.sublist placed).subset (by simp [Outlet.stretch])
    rw [siblings_eq (docWellFormed.parent_of_mem inside)]
    exact placed

end own

/-- Where it stood before, what an outlet shows stands after a call on it. -/
theorem stands_after {relation : List NodeId → List NodeId → Prop} (standing : Standing relation)
    {state : OutletState} {nodesOf : ViewId → List NodeId} {sequence : List ViewId}
    {call : OutletCall} (separate : Separate nodesOf) (wellFormed : state.doc.WellFormed)
    (sequenced : state.outlet.Sequenced nodesOf sequence)
    (given : ∀ view ∈ call.views, nodesOf view.id = view.nodes)
    (used : ∀ node ∈ call.view.nodes, node < state.doc.size)
    (stands : state.outlet.Stands relation nodesOf state.doc) :
    (state.after call).outlet.Stands relation nodesOf (state.after call).doc := by
  have nodes : nodesOf call.view.id = call.view.nodes := given _ call.view_mem_views
  rw [OutletState.after]
  cases course sequenced given with
  | refused _ run =>
      rw [run]
      exact stands
  | removed member run =>
      rw [run]
      exact stands_taken standing separate wellFormed sequenced nodes stands member
  | placed _ split _ _ fits run =>
      obtain ⟨next, placed, stays⟩ :=
        stands_placed standing separate wellFormed sequenced nodes stands split fits used
      rw [run, placed]
      exact stays

end OutletCall

end ViewTemplates
