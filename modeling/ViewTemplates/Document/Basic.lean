import ViewTemplates.Node

/-!
Documents: numbered nodes that know their kind, their parent and their children. Nodes are numbered
in the order of creation and never given up; a node without a parent stays usable.
-/

namespace ViewTemplates

abbrev NodeId := Nat

structure NodeRecord where
  kind : NodeKind
  parent : Option NodeId
  children : List NodeId
  deriving Repr, DecidableEq

structure Document where
  records : Array NodeRecord
  deriving Repr, DecidableEq

namespace Document

def empty : Document := ⟨#[]⟩

def size (doc : Document) : Nat := doc.records.size

/-! Reading. A number that is not in use reads as an empty fragment. -/

def kind (doc : Document) (node : NodeId) : NodeKind :=
  match doc.records[node]? with
  | some record => record.kind
  | none => .fragment

def parent? (doc : Document) (node : NodeId) : Option NodeId :=
  doc.records[node]?.bind (·.parent)

def children (doc : Document) (node : NodeId) : List NodeId :=
  match doc.records[node]? with
  | some record => record.children
  | none => []

def isElement (doc : Document) (node : NodeId) : Bool := (doc.kind node).isElement

def attribute? (doc : Document) (node : NodeId) (name : String) : Option String :=
  (doc.kind node).attributes?.bind (·.get? name)

def child? (doc : Document) (node : NodeId) (index : Nat) : Option NodeId :=
  (doc.children node)[index]?

/-! Writing, one part of one record at a time. -/

/-- Create a node without parent and children; its number is the document's size so far. -/
def create (doc : Document) (kind : NodeKind) : Document :=
  ⟨doc.records.push ⟨kind, none, []⟩⟩

def setKind (doc : Document) (node : NodeId) (kind : NodeKind) : Document :=
  ⟨doc.records.modify node fun record => { record with kind }⟩

def setParent (doc : Document) (node : NodeId) (parent : Option NodeId) : Document :=
  ⟨doc.records.modify node fun record => { record with parent }⟩

def setChildren (doc : Document) (node : NodeId) (children : List NodeId) : Document :=
  ⟨doc.records.modify node fun record => { record with children }⟩

@[simp] theorem size_empty : empty.size = 0 := rfl

@[simp] theorem size_create (doc : Document) (kind : NodeKind) :
    (doc.create kind).size = doc.size + 1 := by
  simp [create, size]

@[simp] theorem size_setKind (doc : Document) (node : NodeId) (kind : NodeKind) :
    (doc.setKind node kind).size = doc.size := by
  simp [setKind, size]

@[simp] theorem size_setParent (doc : Document) (node : NodeId) (parent : Option NodeId) :
    (doc.setParent node parent).size = doc.size := by
  simp [setParent, size]

@[simp] theorem size_setChildren (doc : Document) (node : NodeId) (children : List NodeId) :
    (doc.setChildren node children).size = doc.size := by
  simp [setChildren, size]

end Document

end ViewTemplates
