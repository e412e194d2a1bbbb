/-!
Ordered forests: trees side by side, each a value with a forest below it. A row of siblings is read
from the left, so every law about a forest is one induction with two hypotheses.
-/

namespace ViewTemplates

/-- A tree with its root's value and the forest below it, and then the trees to its right. -/
inductive Forest (α : Type u) where
  | nil
  | cons (value : α) (below rest : Forest α)
  deriving Repr, DecidableEq

namespace Forest

abbrev tree (value : α) (below : Forest α) : Forest α := .cons value below .nil

abbrev leaf (value : α) : Forest α := .cons value .nil .nil

def append : Forest α → Forest α → Forest α
  | .nil, other => other
  | .cons value below rest, other => .cons value below (rest.append other)

instance : Append (Forest α) := ⟨append⟩

@[simp] theorem nil_append (forest : Forest α) : .nil ++ forest = forest := rfl

@[simp] theorem cons_append (value : α) (below rest forest : Forest α) :
    .cons value below rest ++ forest = .cons value below (rest ++ forest) := rfl

@[simp] theorem append_nil (forest : Forest α) : forest ++ .nil = forest := by
  induction forest with
  | nil => rfl
  | cons value below rest _ induction => simp [induction]

theorem append_assoc (first second third : Forest α) :
    first ++ second ++ third = first ++ (second ++ third) := by
  induction first with
  | nil => rfl
  | cons value below rest _ induction => simp [induction]

def map (f : α → β) : Forest α → Forest β
  | .nil => .nil
  | .cons value below rest => .cons (f value) (below.map f) (rest.map f)

@[simp] theorem map_append (f : α → β) (first second : Forest α) :
    (first ++ second).map f = first.map f ++ second.map f := by
  induction first with
  | nil => rfl
  | cons value below rest _ induction => simp [map, induction]

@[simp] theorem map_map (f : α → β) (g : β → γ) (forest : Forest α) :
    (forest.map f).map g = forest.map (g ∘ f) := by
  induction forest with
  | nil => rfl
  | cons value below rest first second => simp [map, first, second]

/-- All values in document order: each before those below it, and these before those to its
right. -/
def preorder : Forest α → List α
  | .nil => []
  | .cons value below rest => value :: (below.preorder ++ rest.preorder)

@[simp] theorem preorder_append (first second : Forest α) :
    (first ++ second).preorder = first.preorder ++ second.preorder := by
  induction first with
  | nil => rfl
  | cons value below rest _ induction => simp [preorder, induction]

@[simp] theorem preorder_map (f : α → β) (forest : Forest α) :
    (forest.map f).preorder = forest.preorder.map f := by
  induction forest with
  | nil => rfl
  | cons value below rest first second => simp [map, preorder, first, second]

def roots : Forest α → List α
  | .nil => []
  | .cons value _ rest => value :: rest.roots

@[simp] theorem roots_append (first second : Forest α) :
    (first ++ second).roots = first.roots ++ second.roots := by
  induction first with
  | nil => rfl
  | cons value below rest _ induction => simp [roots, induction]

/-- All values in document order, each with its depth; the top row has the given one. -/
def withDepth (depth : Nat) : Forest α → List (Nat × α)
  | .nil => []
  | .cons value below rest =>
      (depth, value) :: (below.withDepth (depth + 1) ++ rest.withDepth depth)

end Forest

end ViewTemplates
