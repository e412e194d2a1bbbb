import ViewTemplates.Proofs.Document.WellFormed

/-!
The effect of each change on a well-formed document: which parents and child lists it alters, and
that the document stays well-formed.
-/

namespace ViewTemplates.Document

theorem WellFormed.parent_of_mem {doc : Document} (wellFormed : doc.WellFormed)
    {child parent : NodeId} (member : child ∈ doc.children parent) :
    doc.parent? child = some parent :=
  (wellFormed.parent_iff child parent).mpr member

theorem WellFormed.mem_of_parent {doc : Document} (wellFormed : doc.WellFormed)
    {child parent : NodeId} (attached : doc.parent? child = some parent) :
    child ∈ doc.children parent :=
  (wellFormed.parent_iff child parent).mp attached

theorem WellFormed.container_of_parent {doc : Document} (wellFormed : doc.WellFormed)
    {child parent : NodeId} (attached : doc.parent? child = some parent) :
    (doc.kind parent).isContainer = true := by
  have member := wellFormed.mem_of_parent attached
  cases leaf : (doc.kind parent).isContainer with
  | true => rfl
  | false =>
      rw [wellFormed.leaf parent leaf] at member
      cases member

theorem WellFormed.acyclic_of_childOf {doc next : Document} (wellFormed : doc.WellFormed)
    (fewer : ∀ child parent, next.ChildOf child parent → doc.ChildOf child parent)
    (node : NodeId) : ¬next.Under node node := by
  intro cycle
  exact wellFormed.acyclic node (Relation.TransGen.mono fewer _ _ cycle)

/-! Creation. -/

theorem WellFormed.empty : Document.empty.WellFormed where
  parent_iff := by simp [parent?, children, Document.empty]
  nodup := by simp [children, Document.empty]
  leaf := by simp [children, Document.empty]
  acyclic := by
    intro node cycle
    obtain ⟨parent, attached, _⟩ := Relation.TransGen.head'_iff.mp cycle
    simp [ChildOf, parent?, Document.empty] at attached

theorem WellFormed.create {doc : Document} (wellFormed : doc.WellFormed) (kind : NodeKind) :
    (doc.create kind).WellFormed where
  parent_iff := by
    intro child parent
    rw [parent?_create, children_create]
    exact wellFormed.parent_iff child parent
  nodup := by
    intro node
    rw [children_create]
    exact wellFormed.nodup node
  leaf := by
    intro node leaf
    rw [children_create]
    by_cases fresh : node = doc.size
    · exact children_of_size_le (Nat.le_of_eq fresh.symm)
    · rw [kind_create, if_neg fresh] at leaf
      exact wellFormed.leaf node leaf
  acyclic := by
    apply wellFormed.acyclic_of_childOf
    intro child parent attached
    rwa [ChildOf, parent?_create] at attached

/-! Removal. -/

@[simp] theorem kind_remove (doc : Document) (node other : NodeId) :
    (doc.remove node).kind other = doc.kind other := by
  unfold remove
  cases doc.parent? node <;> simp

@[simp] theorem size_remove (doc : Document) (node : NodeId) :
    (doc.remove node).size = doc.size := by
  unfold remove
  cases doc.parent? node <;> simp

theorem parent?_remove (doc : Document) (node other : NodeId) :
    (doc.remove node).parent? other = if other = node then none else doc.parent? other := by
  unfold remove
  cases attached : doc.parent? node with
  | none =>
      by_cases same : other = node
      · simp [same, attached]
      · simp [same]
  | some parent =>
      have used := lt_size_of_parent? attached
      by_cases same : other = node
      · simp [same, parent?_setParent, used]
      · simp [same, parent?_setParent, Ne.symm same]

theorem WellFormed.children_remove {doc : Document} (wellFormed : doc.WellFormed)
    (node other : NodeId) :
    (doc.remove node).children other = (doc.children other).filter (· != node) := by
  have untouched (foreign : doc.parent? node ≠ some other) :
      (doc.children other).filter (· != node) = doc.children other := by
    apply List.filter_eq_self.mpr
    intro child member
    simp only [bne_iff_ne]
    rintro rfl
    exact foreign (wellFormed.parent_of_mem member)
  unfold remove
  cases attached : doc.parent? node with
  | none => exact (untouched (by simp [attached])).symm
  | some parent =>
      by_cases same : parent = other
      · subst same
        simp [children_setChildren, wellFormed.parent_lt_size attached]
      · rw [untouched (by simp [attached, same])]
        simp [children_setChildren, same]

theorem WellFormed.remove {doc : Document} (wellFormed : doc.WellFormed) (node : NodeId) :
    (doc.remove node).WellFormed where
  parent_iff := by
    intro child parent
    rw [parent?_remove, wellFormed.children_remove, List.mem_filter]
    by_cases same : child = node
    · simp [same]
    · simp [same, wellFormed.parent_iff]
  nodup := by
    intro other
    rw [wellFormed.children_remove]
    exact (wellFormed.nodup other).filter _
  leaf := by
    intro other leaf
    rw [kind_remove] at leaf
    simp [wellFormed.children_remove, wellFormed.leaf other leaf]
  acyclic := by
    apply wellFormed.acyclic_of_childOf
    intro child parent attached
    rw [ChildOf, parent?_remove] at attached
    split at attached
    · cases attached
    · exact attached

/-! Removal of several nodes, one after the other. -/

section removeAll
variable (nodes : List NodeId)

@[simp] theorem kind_foldl_remove (doc : Document) (other : NodeId) :
    (nodes.foldl Document.remove doc).kind other = doc.kind other := by
  induction nodes generalizing doc with
  | nil => rfl
  | cons node rest induction => rw [List.foldl_cons, induction, kind_remove]

@[simp] theorem size_foldl_remove (doc : Document) :
    (nodes.foldl Document.remove doc).size = doc.size := by
  induction nodes generalizing doc with
  | nil => rfl
  | cons node rest induction => rw [List.foldl_cons, induction, size_remove]

theorem parent?_foldl_remove (doc : Document) (other : NodeId) :
    (nodes.foldl Document.remove doc).parent? other =
      if other ∈ nodes then none else doc.parent? other := by
  induction nodes generalizing doc with
  | nil => simp
  | cons node rest induction =>
      rw [List.foldl_cons, induction, parent?_remove]
      by_cases first : other = node <;> by_cases later : other ∈ rest <;> simp [first, later]

theorem WellFormed.foldl_remove {doc : Document} (wellFormed : doc.WellFormed) :
    (nodes.foldl Document.remove doc).WellFormed := by
  induction nodes generalizing doc with
  | nil => exact wellFormed
  | cons node rest induction => exact induction (wellFormed.remove node)

theorem WellFormed.children_foldl_remove {doc : Document} (wellFormed : doc.WellFormed)
    (other : NodeId) :
    (nodes.foldl Document.remove doc).children other =
      (doc.children other).filter (· ∉ nodes) := by
  induction nodes generalizing doc with
  | nil => exact (List.filter_eq_self.mpr (by simp)).symm
  | cons node rest induction =>
      rw [List.foldl_cons, induction (wellFormed.remove node), wellFormed.children_remove,
        List.filter_filter]
      congr 1
      funext child
      by_cases first : child = node <;> by_cases later : child ∈ rest <;> simp [first, later]

end removeAll

/-! Placement in a list. -/

section place
variable {node sibling : NodeId}

theorem placeBefore_append {front back : List NodeId} (absent : sibling ∉ front) :
    placeBefore node sibling (front ++ sibling :: back) = front ++ node :: sibling :: back := by
  induction front with
  | nil => simp [placeBefore]
  | cons child rest induction =>
      rw [List.mem_cons, not_or] at absent
      rw [List.cons_append, placeBefore, if_neg (Ne.symm absent.1), induction absent.2]
      rfl

theorem perm_placeBefore (row : List NodeId) :
    (placeBefore node sibling row).Perm (node :: row) := by
  induction row with
  | nil => exact .refl _
  | cons child rest induction =>
      rw [placeBefore]
      split
      · exact .refl _
      · exact (induction.cons child).trans (.swap node child rest)

theorem perm_place (reference : Option NodeId) (row : List NodeId) :
    (place node reference row).Perm (node :: row) := by
  cases reference with
  | none => exact List.perm_append_singleton node row
  | some sibling => exact perm_placeBefore row

end place

/-! Insertion. -/

/-- What an insertion makes of the document when nothing forbids it. -/
def moved (doc : Document) (parent node : NodeId) (reference : Option NodeId) : Document :=
  ((doc.remove node).setChildren parent
    (place node reference ((doc.remove node).children parent))).setParent node (some parent)

/-- What an insertion asks of the document, the nodes being in use. -/
structure Movable (doc : Document) (parent node : NodeId) (reference : Option NodeId) : Prop where
  container : (doc.kind parent).isContainer = true
  used : node < doc.size
  parentUsed : parent < doc.size
  notBelow : ¬doc.Below parent node
  sibling : ∀ other, reference = some other → doc.parent? other = some parent
  other : reference ≠ some node

section moved
variable {doc : Document} {parent node : NodeId} {reference : Option NodeId}

@[simp] theorem kind_moved (other : NodeId) :
    (doc.moved parent node reference).kind other = doc.kind other := by
  simp [moved]

@[simp] theorem size_moved : (doc.moved parent node reference).size = doc.size := by
  simp [moved]

variable (wellFormed : doc.WellFormed) (movable : doc.Movable parent node reference)
include wellFormed movable

theorem WellFormed.insertBefore_eq : doc.insertBefore parent node reference =
    .ok (doc.moved parent node reference) := by
  have acyclic : ¬doc.isAncestorOf node parent = true := fun above =>
    movable.notBelow (wellFormed.isAncestorOf_iff.mp above)
  have sibling : ¬(reference.any fun other => doc.parent? other != some parent) = true := by
    cases reference with
    | none => simp
    | some other => simp [movable.sibling other rfl]
  rw [insertBefore, if_neg (by simp [movable.container]), if_neg acyclic,
    if_neg movable.other, if_neg sibling]
  rfl

omit wellFormed in
theorem parent?_moved (other : NodeId) : (doc.moved parent node reference).parent? other =
    if other = node then some parent else doc.parent? other := by
  by_cases same : other = node
  · simp [moved, parent?_setParent, same, movable.used]
  · simp [moved, parent?_setParent, parent?_remove, same, Ne.symm same]

theorem WellFormed.children_moved (other : NodeId) :
    (doc.moved parent node reference).children other =
      if other = parent then place node reference ((doc.children parent).filter (· != node))
      else (doc.children other).filter (· != node) := by
  by_cases same : other = parent
  · simp [moved, children_setChildren, wellFormed.children_remove, same, movable.parentUsed]
  · simp [moved, children_setChildren, wellFormed.children_remove, same, Ne.symm same]

omit wellFormed in
/-- A way up in the new document is an old one, or leads to the moved node and on from its new
parent. -/
theorem under_moved {first last : NodeId}
    (under : (doc.moved parent node reference).Under first last) :
    doc.Under first last ∨ (doc.Below first node ∧ doc.Below parent last) := by
  induction under using Relation.TransGen.head_induction_on with
  | single attached =>
      rename_i first
      rw [ChildOf, parent?_moved movable] at attached
      split at attached
      next same =>
        obtain rfl : parent = last := Option.some.inj attached
        exact .inr ⟨same ▸ .refl, .refl⟩
      next => exact .inl (.single attached)
  | head attached higher induction =>
      rename_i first middle
      rw [ChildOf, parent?_moved movable] at attached
      split at attached
      next same =>
        obtain rfl : parent = middle := Option.some.inj attached
        rcases induction with under | ⟨below, above⟩
        · exact .inr ⟨same ▸ .refl, under.to_reflTransGen⟩
        · exact absurd below movable.notBelow
      next =>
        rcases induction with under | ⟨below, above⟩
        · exact .inl (.head attached under)
        · exact .inr ⟨.head attached below, above⟩

omit wellFormed in
/-- The ancestors of the new parent stay its only ancestors. -/
theorem below_moved {last : NodeId} (below : (doc.moved parent node reference).Below parent last) :
    doc.Below parent last := by
  rcases Relation.reflTransGen_iff_eq_or_transGen.mp below with rfl | under
  · exact .refl
  · rcases under_moved movable under with under | ⟨again, _⟩
    · exact under.to_reflTransGen
    · exact absurd again movable.notBelow

theorem WellFormed.moved : (doc.moved parent node reference).WellFormed where
  parent_iff := by
    intro child other
    rw [parent?_moved movable, wellFormed.children_moved movable]
    by_cases isNode : child = node
    · subst isNode
      by_cases isParent : other = parent
      · simp [isParent, (perm_place reference _).mem_iff]
      · simp [isParent, Ne.symm isParent]
    · by_cases isParent : other = parent
      · simp [isNode, isParent, (perm_place reference _).mem_iff, wellFormed.parent_iff]
      · simp [isNode, isParent, wellFormed.parent_iff]
  nodup := by
    intro other
    rw [wellFormed.children_moved movable]
    split
    · rw [(perm_place reference _).nodup_iff, List.nodup_cons]
      exact ⟨by simp, (wellFormed.nodup parent).filter _⟩
    · exact (wellFormed.nodup other).filter _
  leaf := by
    intro other leaf
    rw [kind_moved] at leaf
    have apart : other ≠ parent := by
      rintro rfl
      rw [movable.container] at leaf
      cases leaf
    simp [wellFormed.children_moved movable, apart, wellFormed.leaf other leaf]
  acyclic := by
    intro other cycle
    rcases under_moved movable cycle with under | ⟨below, above⟩
    · exact wellFormed.acyclic other under
    · exact movable.notBelow (above.trans below)

end moved

/-- The ways in which an insertion succeeds. -/
theorem WellFormed.insertBefore_cases {doc next : Document} {parent node : NodeId}
    {reference : Option NodeId} (wellFormed : doc.WellFormed) (used : node < doc.size)
    (parentUsed : parent < doc.size)
    (inserted : doc.insertBefore parent node reference = .ok next) :
    (reference = some node ∧ next = doc) ∨
      doc.Movable parent node reference ∧ next = doc.moved parent node reference := by
  rw [Document.insertBefore] at inserted
  split at inserted
  · cases inserted
  next container =>
    split at inserted
    · cases inserted
    next acyclic =>
      split at inserted
      next same =>
        cases inserted
        exact .inl ⟨same, rfl⟩
      next different =>
        split at inserted
        · cases inserted
        next sibling =>
          have movable : doc.Movable parent node reference := by
            refine ⟨by simpa using container, used, parentUsed, ?_, ?_, different⟩
            · exact fun below => acyclic (wellFormed.isAncestorOf_iff.mpr below)
            · rintro other rfl
              simpa using sibling
          cases inserted
          exact .inr ⟨movable, rfl⟩

theorem WellFormed.insertBefore {doc next : Document} {parent node : NodeId}
    {reference : Option NodeId} (wellFormed : doc.WellFormed) (used : node < doc.size)
    (parentUsed : parent < doc.size)
    (inserted : doc.insertBefore parent node reference = .ok next) : next.WellFormed := by
  rcases wellFormed.insertBefore_cases used parentUsed inserted with
    ⟨_, rfl⟩ | ⟨movable, rfl⟩
  · exact wellFormed
  · exact wellFormed.moved movable

/-! Taking out all children. -/

section takeChildren
variable {doc : Document} (node : NodeId)

theorem kind_foldl_setParent (row : List NodeId) (doc : Document) (other : NodeId) :
    (row.foldl (fun out child => out.setParent child none) doc).kind other = doc.kind other := by
  induction row generalizing doc with
  | nil => rfl
  | cons child rest induction => rw [List.foldl_cons, induction, kind_setParent]

theorem children_foldl_setParent (row : List NodeId) (doc : Document) (other : NodeId) :
    (row.foldl (fun out child => out.setParent child none) doc).children other =
      doc.children other := by
  induction row generalizing doc with
  | nil => rfl
  | cons child rest induction => rw [List.foldl_cons, induction, children_setParent]

theorem size_foldl_setParent (row : List NodeId) (doc : Document) :
    (row.foldl (fun out child => out.setParent child none) doc).size = doc.size := by
  induction row generalizing doc with
  | nil => rfl
  | cons child rest induction => rw [List.foldl_cons, induction, size_setParent]

theorem parent?_foldl_setParent (row : List NodeId) (doc : Document) (other : NodeId) :
    (row.foldl (fun out child => out.setParent child none) doc).parent? other =
      if other ∈ row then none else doc.parent? other := by
  induction row generalizing doc with
  | nil => simp
  | cons child rest induction =>
      rw [List.foldl_cons, induction, parent?_setParent]
      by_cases used : other < doc.size
      · by_cases first : other = child <;> by_cases later : other ∈ rest <;>
          simp_all [Ne.symm]
      · have unused := parent?_of_size_le (Nat.le_of_not_lt used)
        simp [unused]

@[simp] theorem kind_takeChildren (other : NodeId) :
    (doc.takeChildren node).kind other = doc.kind other := by
  rw [takeChildren, kind_foldl_setParent, kind_setChildren]

@[simp] theorem size_takeChildren : (doc.takeChildren node).size = doc.size := by
  rw [takeChildren, size_foldl_setParent, size_setChildren]

theorem parent?_takeChildren (other : NodeId) : (doc.takeChildren node).parent? other =
    if other ∈ doc.children node then none else doc.parent? other := by
  rw [takeChildren, parent?_foldl_setParent, parent?_setChildren]

theorem children_takeChildren (other : NodeId) : (doc.takeChildren node).children other =
    if other = node then [] else doc.children other := by
  rw [takeChildren, children_foldl_setParent, children_setChildren]
  by_cases same : node = other
  · subst same
    by_cases used : node < doc.size
    · simp [used]
    · simp [children_of_size_le (Nat.le_of_not_lt used)]
  · simp [same, Ne.symm same]

theorem WellFormed.takeChildren (wellFormed : doc.WellFormed) :
    (doc.takeChildren node).WellFormed where
  parent_iff := by
    intro child parent
    rw [parent?_takeChildren, children_takeChildren]
    by_cases member : child ∈ doc.children node
    · have attached := wellFormed.parent_of_mem member
      by_cases same : parent = node
      · simp [member, same]
      · simp [member, same, ← wellFormed.parent_iff, attached, Ne.symm same]
    · by_cases same : parent = node
      · simp [member, same, wellFormed.parent_iff]
      · simp [member, same, wellFormed.parent_iff]
  nodup := by
    intro other
    rw [children_takeChildren]
    split
    · exact List.nodup_nil
    · exact wellFormed.nodup other
  leaf := by
    intro other leaf
    rw [kind_takeChildren] at leaf
    simp [children_takeChildren, wellFormed.leaf other leaf]
  acyclic := by
    apply wellFormed.acyclic_of_childOf
    intro child parent attached
    rw [ChildOf, parent?_takeChildren] at attached
    split at attached
    · cases attached
    · exact attached

end takeChildren

end ViewTemplates.Document
