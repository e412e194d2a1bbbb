import ViewTemplates.Document.Edit

/-!
Kinds, parents and children as they read after each change to a document.
-/

namespace ViewTemplates.Document

/-! Numbers that are not in use. -/

theorem kind_of_size_le {doc : Document} {node : NodeId} (unused : doc.size ≤ node) :
    doc.kind node = .fragment := by
  have missing : doc.records[node]? = none := Array.getElem?_eq_none unused
  simp only [kind, missing]

theorem parent?_of_size_le {doc : Document} {node : NodeId} (unused : doc.size ≤ node) :
    doc.parent? node = none := by
  have missing : doc.records[node]? = none := Array.getElem?_eq_none unused
  simp only [parent?, missing, Option.bind_none]

theorem children_of_size_le {doc : Document} {node : NodeId} (unused : doc.size ≤ node) :
    doc.children node = [] := by
  have missing : doc.records[node]? = none := Array.getElem?_eq_none unused
  simp only [children, missing]

theorem lt_size_of_parent? {doc : Document} {node parent : NodeId}
    (attached : doc.parent? node = some parent) : node < doc.size := by
  apply Nat.lt_of_not_le
  intro unused
  rw [parent?_of_size_le unused] at attached
  cases attached

theorem lt_size_of_mem_children {doc : Document} {node child : NodeId}
    (member : child ∈ doc.children node) : node < doc.size := by
  apply Nat.lt_of_not_le
  intro unused
  rw [children_of_size_le unused] at member
  cases member

/-! After a creation. -/

section create
variable (doc : Document) (kind : NodeKind) (node : NodeId)

theorem kind_create :
    (doc.create kind).kind node = if node = doc.size then kind else doc.kind node := by
  simp only [Document.kind, create, size, Array.getElem?_push]
  by_cases fresh : node = doc.records.size <;> simp [fresh]

@[simp] theorem parent?_create : (doc.create kind).parent? node = doc.parent? node := by
  simp only [parent?, create, Array.getElem?_push]
  by_cases fresh : node = doc.records.size <;> simp [fresh]

@[simp] theorem children_create : (doc.create kind).children node = doc.children node := by
  simp only [children, create, Array.getElem?_push]
  by_cases fresh : node = doc.records.size <;> simp [fresh]

theorem kind_create_of_lt (used : node < doc.size) :
    (doc.create kind).kind node = doc.kind node := by
  rw [kind_create, if_neg (Nat.ne_of_lt used)]

end create

/-! After a change to one record. -/

section write
variable (doc : Document) (node other : NodeId)

@[simp] theorem kind_setParent (parent : Option NodeId) :
    (doc.setParent node parent).kind other = doc.kind other := by
  simp only [kind, setParent, Array.getElem?_modify]
  by_cases same : node = other
  · cases doc.records[other]? <;> simp [same]
  · simp [same]

@[simp] theorem children_setParent (parent : Option NodeId) :
    (doc.setParent node parent).children other = doc.children other := by
  simp only [children, setParent, Array.getElem?_modify]
  by_cases same : node = other
  · cases doc.records[other]? <;> simp [same]
  · simp [same]

theorem parent?_setParent (parent : Option NodeId) :
    (doc.setParent node parent).parent? other =
      if node = other ∧ node < doc.size then parent else doc.parent? other := by
  simp only [parent?, setParent, size, Array.getElem?_modify]
  by_cases same : node = other
  · subst same
    by_cases used : node < doc.records.size
    · simp [used]
    · simp [used]
  · simp [same]

theorem kind_setKind (kind : NodeKind) :
    (doc.setKind node kind).kind other =
      if node = other ∧ node < doc.size then kind else doc.kind other := by
  simp only [Document.kind, setKind, size, Array.getElem?_modify]
  by_cases same : node = other
  · subst same
    by_cases used : node < doc.records.size
    · simp [used]
    · simp [used]
  · simp [same]

@[simp] theorem parent?_setKind (kind : NodeKind) :
    (doc.setKind node kind).parent? other = doc.parent? other := by
  simp only [parent?, setKind, Array.getElem?_modify]
  by_cases same : node = other
  · cases doc.records[other]? <;> simp [same]
  · simp [same]

@[simp] theorem children_setKind (kind : NodeKind) :
    (doc.setKind node kind).children other = doc.children other := by
  simp only [children, setKind, Array.getElem?_modify]
  by_cases same : node = other
  · cases doc.records[other]? <;> simp [same]
  · simp [same]

@[simp] theorem kind_setChildren (row : List NodeId) :
    (doc.setChildren node row).kind other = doc.kind other := by
  simp only [kind, setChildren, Array.getElem?_modify]
  by_cases same : node = other
  · cases doc.records[other]? <;> simp [same]
  · simp [same]

@[simp] theorem parent?_setChildren (row : List NodeId) :
    (doc.setChildren node row).parent? other = doc.parent? other := by
  simp only [parent?, setChildren, Array.getElem?_modify]
  by_cases same : node = other
  · cases doc.records[other]? <;> simp [same]
  · simp [same]

theorem children_setChildren (row : List NodeId) :
    (doc.setChildren node row).children other =
      if node = other ∧ node < doc.size then row else doc.children other := by
  simp only [children, setChildren, size, Array.getElem?_modify]
  by_cases same : node = other
  · subst same
    by_cases used : node < doc.records.size
    · simp [used]
    · simp [used]
  · simp [same]

end write

end ViewTemplates.Document
