import ViewTemplates.Proofs.Artifacts

/-!
What an insertion and a replacement do, exactly: when they are refused, and otherwise where the node
hangs, which child lists change and how, and that everything else stays.
-/

namespace ViewTemplates.Document

variable {doc middle next : Document} {parent node : NodeId} {reference : Option NodeId}

/-- The node cannot be put below the parent in front of the reference: the parent is a text or a
comment, or is the node or below it, or the reference is no child of it. -/
def Refuses (doc : Document) (parent node : NodeId) (reference : Option NodeId) : Prop :=
  (doc.kind parent).isContainer = false ∨ doc.Below parent node ∨
    ∃ sibling, reference = some sibling ∧ sibling ∉ doc.children parent

/-- The node hangs where it is said, and some other nodes hang nowhere. Its former parent, if
another, has lost just the node. Apart from that and from the children of the new parent, all is as
it was. -/
structure Rehung (doc : Document) (node : NodeId) (upper : Option NodeId) (freed : List NodeId)
    (next : Document) : Prop where
  hangs : next.parent? node = upper
  free : ∀ other ∈ freed, next.parent? other = none
  leaves : ∀ former, doc.parent? node = some former → upper ≠ some former →
    ∃ front back, doc.children former = front ++ node :: back ∧
      next.children former = front ++ back
  size : next.size = doc.size
  kinds : ∀ other, next.kind other = doc.kind other
  parents : ∀ other, other ≠ node → other ∉ freed → next.parent? other = doc.parent? other
  rows : ∀ other, doc.parent? node ≠ some other → upper ≠ some other →
    next.children other = doc.children other

/-- The node stands below the parent directly in front of the reference, or at the end, and the
other children are in their old order. -/
structure Inserted (doc : Document) (parent node : NodeId) (reference : Option NodeId)
    (next : Document) : Prop extends Rehung doc node (some parent) [] next where
  last : reference = none →
    next.children parent = (doc.children parent).filter (· != node) ++ [node]
  before : ∀ sibling, reference = some sibling → ∃ front back,
    (doc.children parent).filter (· != node) = front ++ sibling :: back ∧
      next.children parent = front ++ node :: sibling :: back

/-- The new node stands below the parent where the old one stood, and the old one hangs nowhere. -/
structure Replaced (doc : Document) (parent new old : NodeId) (next : Document) : Prop extends
    Rehung doc new (some parent) [old] next where
  row : ∃ front back, (doc.children parent).filter (· != new) = front ++ old :: back ∧
    next.children parent = front ++ new :: back

/-- A node stands once in a row: not before itself, and without it the row is what stands around. -/
theorem filter_middle {front back : List NodeId} (nodup : (front ++ node :: back).Nodup) :
    node ∉ front ∧ (front ++ node :: back).filter (· != node) = front ++ back := by
  rw [List.nodup_middle, List.nodup_cons, List.mem_append, not_or] at nodup
  refine ⟨nodup.1.1, ?_⟩
  rw [List.filter_append, List.filter_cons_of_neg (by simp), filter_ne nodup.1.1,
    filter_ne nodup.1.2]

/-! A node that is taken out. -/

section wellFormed
variable (wellFormed : doc.WellFormed)
include wellFormed

theorem WellFormed.notMem_of_parent {other : NodeId} (elsewhere : doc.parent? node ≠ some other) :
    node ∉ doc.children other :=
  fun member => elsewhere (wellFormed.parent_of_mem member)

theorem WellFormed.exists_row_of_parent {former : NodeId}
    (attached : doc.parent? node = some former) :
    ∃ front back, doc.children former = front ++ node :: back ∧
      (doc.children former).filter (· != node) = front ++ back := by
  obtain ⟨front, back, row⟩ := List.append_of_mem (wellFormed.mem_of_parent attached)
  have nodup := wellFormed.nodup former
  rw [row] at nodup
  refine ⟨front, back, row, ?_⟩
  rw [row, (filter_middle nodup).2]

theorem WellFormed.rehung_remove (node : NodeId) : Rehung doc node none [] (doc.remove node) where
  hangs := by rw [parent?_remove, if_pos rfl]
  free := nofun
  leaves former attached _ := by
    rw [wellFormed.children_remove]
    exact wellFormed.exists_row_of_parent attached
  size := size_remove doc node
  kinds := kind_remove doc node
  parents other different _ := by rw [parent?_remove, if_neg different]
  rows other elsewhere _ := by
    rw [wellFormed.children_remove, filter_ne (wellFormed.notMem_of_parent elsewhere)]

/-! A node that is put in. -/

theorem WellFormed.rehung_moved (movable : doc.Movable parent node reference) :
    Rehung doc node (some parent) [] (doc.moved parent node reference) where
  hangs := by rw [parent?_moved movable, if_pos rfl]
  free := nofun
  leaves former attached different := by
    rw [wellFormed.children_moved movable, if_neg fun same => different (congrArg some same.symm)]
    exact wellFormed.exists_row_of_parent attached
  size := size_moved
  kinds _ := kind_moved _
  parents other different _ := by rw [parent?_moved movable, if_neg different]
  rows other elsewhere different := by
    rw [wellFormed.children_moved movable, if_neg fun same => different (congrArg some same.symm),
      filter_ne (wellFormed.notMem_of_parent elsewhere)]

theorem WellFormed.inserted_moved (movable : doc.Movable parent node reference) :
    Inserted doc parent node reference (doc.moved parent node reference) where
  toRehung := wellFormed.rehung_moved movable
  last atEnd := by rw [wellFormed.children_moved movable, if_pos rfl, atEnd, place]
  before := by
    rintro sibling rfl
    have attached := movable.sibling sibling rfl
    have different : sibling ≠ node := fun same => movable.other (congrArg some same)
    have member : sibling ∈ (doc.children parent).filter (· != node) :=
      List.mem_filter.mpr ⟨wellFormed.mem_of_parent attached, by simpa using different⟩
    obtain ⟨front, back, row⟩ := List.append_of_mem member
    have nodup := (wellFormed.nodup parent).filter (· != node)
    rw [row] at nodup
    refine ⟨front, back, row, ?_⟩
    rw [wellFormed.children_moved movable, if_pos rfl, row, place,
      placeBefore_append (filter_middle nodup).1]

theorem WellFormed.movable_of_not_refuses (used : node < doc.size) (parentUsed : parent < doc.size)
    (other : reference ≠ some node) (allowed : ¬doc.Refuses parent node reference) :
    doc.Movable parent node reference := by
  rw [Refuses, not_or, not_or] at allowed
  obtain ⟨container, notBelow, siblings⟩ := allowed
  refine ⟨by simpa using container, used, parentUsed, notBelow, fun sibling same => ?_, other⟩
  by_contra elsewhere
  exact siblings ⟨sibling, same, wellFormed.notMem_of_parent elsewhere⟩

theorem WellFormed.not_refuses_of_movable (movable : doc.Movable parent node reference) :
    ¬doc.Refuses parent node reference := by
  rintro (leaf | below | ⟨sibling, same, absent⟩)
  · rw [movable.container] at leaf
    cases leaf
  · exact movable.notBelow below
  · exact absent (wellFormed.mem_of_parent (movable.sibling sibling same))

/-- A node is not put in front of itself, wherever it is. -/
theorem WellFormed.insertBefore_self (parent node : NodeId) :
    match doc.insertBefore parent node (some node) with
    | .error _ => doc.Refuses parent node none
    | .ok next => ¬doc.Refuses parent node none ∧ next = doc := by
  by_cases leaf : (doc.kind parent).isContainer = false
  · rw [Document.insertBefore, if_pos leaf]
    exact .inl leaf
  by_cases above : doc.isAncestorOf node parent = true
  · rw [Document.insertBefore, if_neg leaf, if_pos above]
    exact .inr (.inl (wellFormed.isAncestorOf_iff.mp above))
  rw [Document.insertBefore, if_neg leaf, if_neg above, if_pos rfl]
  refine ⟨?_, rfl⟩
  rintro (isLeaf | below | ⟨_, equality, _⟩)
  · exact leaf isLeaf
  · exact above (wellFormed.isAncestorOf_iff.mpr below)
  · cases equality

theorem WellFormed.insertBefore_outcome (used : node < doc.size) (parentUsed : parent < doc.size)
    (other : reference ≠ some node) :
    match doc.insertBefore parent node reference with
    | .error _ => doc.Refuses parent node reference
    | .ok next => doc.Movable parent node reference ∧ next = doc.moved parent node reference := by
  have movable := wellFormed.movable_of_not_refuses used parentUsed other
  cases inserted : doc.insertBefore parent node reference with
  | error fault =>
      by_contra allowed
      rw [wellFormed.insertBefore_eq (movable allowed)] at inserted
      cases inserted
  | ok next =>
      rcases wellFormed.insertBefore_cases used parentUsed inserted with ⟨same, -⟩ | moved
      · exact absurd same other
      · exact moved

/-- An insertion is refused exactly in the cases that are named, and then nothing has changed.
Otherwise the node stands where it was to be put, and nothing else has moved. -/
theorem insertBefore_effect (used : node < doc.size) (parentUsed : parent < doc.size)
    (other : reference ≠ some node) :
    match doc.insertBefore parent node reference with
    | .error _ => doc.Refuses parent node reference ∧
        doc.after (.insertBefore parent node reference) = doc
    | .ok next => ¬doc.Refuses parent node reference ∧
        doc.after (.insertBefore parent node reference) = next ∧
        Inserted doc parent node reference next := by
  have outcome := wellFormed.insertBefore_outcome used parentUsed other
  rw [Document.after]
  cases inserted : doc.insertBefore parent node reference with
  | error fault =>
      rw [inserted] at outcome
      exact ⟨outcome, rfl⟩
  | ok next =>
      rw [inserted] at outcome
      obtain ⟨movable, rfl⟩ := outcome
      exact ⟨wellFormed.not_refuses_of_movable movable, rfl, wellFormed.inserted_moved movable⟩

end wellFormed

/-- Two elements side by side below a fragment: one with a text and a comment, one with a text. -/
def twoRows : Document :=
  (Document.empty.graft none (.tree .fragment
    (.cons (.element "ul" []) (.cons (.text "a") .nil (.leaf (.comment "b")))
      (.tree (.element "ol" []) (.leaf (.text "c")))))).2

theorem wellFormed_twoRows : twoRows.WellFormed :=
  WellFormed.empty.graft _ (by simp [Forest.Bare, NodeKind.isContainer])

theorem size_twoRows : twoRows.size = 6 := by decide

theorem insertBefore_effect_twoRows :
    5 < twoRows.size ∧ 1 < twoRows.size ∧ some 3 ≠ some 5 ∧
      (twoRows.after (.insertBefore 1 5 (some 3))).children 1 = [2, 5, 3] ∧
      Inserted twoRows 1 5 (some 3) (twoRows.after (.insertBefore 1 5 (some 3))) := by
  have used : 5 < twoRows.size := by rw [size_twoRows]; decide
  have parentUsed : 1 < twoRows.size := by rw [size_twoRows]; decide
  have effect := insertBefore_effect wellFormed_twoRows used parentUsed
    (show some 3 ≠ some 5 by decide)
  obtain ⟨next, inserted⟩ := exists_of_isOk
    (show (twoRows.insertBefore 1 5 (some 3)).isOk = true by decide)
  rw [inserted] at effect
  obtain ⟨-, after, inserted⟩ := effect
  exact ⟨used, parentUsed, by decide, by decide, after ▸ inserted⟩

section wellFormed
variable (wellFormed : doc.WellFormed)
include wellFormed

/-! A node that takes the place of another one. -/

omit wellFormed in
theorem Rehung.remove {old : NodeId} (rehung : Rehung doc node (some parent) [] middle)
    (wellFormed : middle.WellFormed) (attached : middle.parent? old = some parent)
    (different : old ≠ node) : Rehung doc node (some parent) [old] (middle.remove old) := by
  have taken := wellFormed.rehung_remove old
  constructor
  case hangs => rw [taken.parents node different.symm (by simp), rehung.hangs]
  case free =>
    intro other member
    rw [List.mem_singleton.mp member, taken.hangs]
  case leaves =>
    intro former stood elsewhere
    rw [taken.rows former (attached ▸ elsewhere) (by simp)]
    exact rehung.leaves former stood elsewhere
  case size => rw [taken.size, rehung.size]
  case kinds =>
    intro other
    rw [taken.kinds, rehung.kinds]
  case parents =>
    intro other notNode notOld
    rw [List.mem_singleton] at notOld
    rw [taken.parents other notOld (by simp), rehung.parents other notNode (by simp)]
  case rows =>
    intro other stood elsewhere
    rw [taken.rows other (attached ▸ elsewhere) (by simp), rehung.rows other stood elsewhere]

theorem WellFormed.replaced_moved {new old : NodeId} (movable : doc.Movable parent new (some old)) :
    Replaced doc parent new old ((doc.moved parent new (some old)).remove old) := by
  have middle := wellFormed.moved movable
  have inserted := wellFormed.inserted_moved movable
  have different : old ≠ new := fun same => movable.other (congrArg some same)
  have attached : (doc.moved parent new (some old)).parent? old = some parent := by
    rw [inserted.parents old different (by simp), movable.sibling old rfl]
  refine ⟨inserted.toRehung.remove middle attached different, ?_⟩
  obtain ⟨front, back, row, shown⟩ := inserted.before old rfl
  have nodup := middle.nodup parent
  rw [shown, List.append_cons] at nodup
  refine ⟨front, back, row, ?_⟩
  rw [middle.children_remove, shown, List.append_cons, (filter_middle nodup).2, ← List.append_cons]

/-- A replacement by another node is refused exactly in the cases that are named, and then nothing
has changed; otherwise the new node stands in the place of the old one. A node that replaces itself
is taken out, also where it is no child of the parent. -/
theorem replaceChild_effect {new old : NodeId} (used : new < doc.size)
    (parentUsed : parent < doc.size) :
    match doc.replaceChild parent new old with
    | .error _ => doc.after (.replaceChild parent new old) = doc ∧
        (new ≠ old → doc.Refuses parent new (some old)) ∧
        (new = old → doc.Refuses parent new none)
    | .ok next => doc.after (.replaceChild parent new old) = next ∧
        (new ≠ old → ¬doc.Refuses parent new (some old) ∧ Replaced doc parent new old next) ∧
        (new = old → ¬doc.Refuses parent new none ∧ Rehung doc new none [] next) := by
  rw [Document.after, Document.replaceChild]
  by_cases same : new = old
  · subst same
    have itself := wellFormed.insertBefore_self parent new
    cases inserted : doc.insertBefore parent new (some new) with
    | error fault =>
        rw [inserted] at itself
        exact ⟨rfl, fun different => absurd rfl different, fun _ => itself⟩
    | ok next =>
        rw [inserted] at itself
        obtain ⟨allowed, rfl⟩ := itself
        exact ⟨rfl, fun different => absurd rfl different,
          fun _ => ⟨allowed, wellFormed.rehung_remove new⟩⟩
  · have other : some old ≠ some new := fun equality => same (Option.some.inj equality).symm
    have outcome := wellFormed.insertBefore_outcome used parentUsed other
    cases inserted : doc.insertBefore parent new (some old) with
    | error fault =>
        rw [inserted] at outcome
        exact ⟨rfl, fun _ => outcome, fun equality => absurd equality same⟩
    | ok next =>
        rw [inserted] at outcome
        obtain ⟨movable, rfl⟩ := outcome
        exact ⟨rfl, fun _ => ⟨wellFormed.not_refuses_of_movable movable,
          wellFormed.replaced_moved movable⟩, fun equality => absurd equality same⟩

end wellFormed

/-- The text stands inside the element that it replaces. -/
theorem replaceChild_effect_twoRows :
    2 < twoRows.size ∧ 0 < twoRows.size ∧
      (twoRows.after (.replaceChild 0 2 1)).children 0 = [2, 4] ∧
      Replaced twoRows 0 2 1 (twoRows.after (.replaceChild 0 2 1)) := by
  have used : 2 < twoRows.size := by rw [size_twoRows]; decide
  have parentUsed : 0 < twoRows.size := by rw [size_twoRows]; decide
  have effect := @replaceChild_effect _ _ wellFormed_twoRows 2 1 used parentUsed
  obtain ⟨next, replaced⟩ := exists_of_isOk
    (show (twoRows.replaceChild 0 2 1).isOk = true by decide)
  rw [replaced] at effect
  obtain ⟨after, others, -⟩ := effect
  exact ⟨used, parentUsed, by decide, after ▸ (others (by decide)).2⟩

/-- A child that replaces itself is lost, and so is a node that replaces itself as a child of a node
that it is no child of. -/
theorem lost_by_replacing_itself :
    twoRows.WellFormed ∧ 1 ∈ twoRows.children 0 ∧
      (twoRows.replaceChild 0 1 1).isOk = true ∧
      (twoRows.after (.replaceChild 0 1 1)).children 0 = [4] ∧
      (twoRows.after (.replaceChild 0 1 1)).parent? 1 = none ∧
      5 ∉ twoRows.children 0 ∧ (twoRows.replaceChild 0 5 5).isOk = true ∧
      (twoRows.children 4, (twoRows.after (.replaceChild 0 5 5)).children 4) = ([5], []) := by
  have row : twoRows.children 0 = [1, 4] := by decide
  rw [row]
  exact ⟨wellFormed_twoRows, by decide, by decide, by decide, by decide, by decide, by decide,
    by decide⟩

end ViewTemplates.Document
