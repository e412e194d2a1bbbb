import ViewTemplates.Selector.Matching

/-!
Selectors sorted into buckets by what they require, so that an element is compared only with those
that share a name, a class or an attribute with it.
-/

namespace ViewTemplates

abbrev Buckets (κ β : Type) := List (κ × List β)

namespace Buckets

variable [DecidableEq κ]

def get (buckets : Buckets κ β) (key : κ) : List β :=
  match buckets with
  | [] => []
  | (other, values) :: rest => if other = key then values else Buckets.get rest key

def add (buckets : Buckets κ β) (key : κ) (value : β) : Buckets κ β :=
  match buckets with
  | [] => [(key, [value])]
  | (other, values) :: rest =>
      if other = key then (other, values ++ [value]) :: rest
      else (other, values) :: Buckets.add rest key value

theorem get_add (buckets : Buckets κ β) (key other : κ) (value : β) :
    (buckets.add key value).get other =
      if key = other then buckets.get other ++ [value] else buckets.get other := by
  induction buckets with
  | nil => by_cases same : key = other <;> simp [add, get, same]
  | cons bucket rest induction =>
      obtain ⟨first, values⟩ := bucket
      by_cases here : first = key
      · subst here
        by_cases same : first = other <;> simp [add, get, same]
      · by_cases same : key = other
        · subst same
          simp [add, get, here, induction]
        · have apart : ¬other = key := fun equal => same equal.symm
          by_cases found : first = other <;>
            simp [add, get, here, same, apart, found, induction]

end Buckets

/-- A selector, what it was added with, and the number of selectors added before it. -/
structure IndexEntry (α : Type) where
  selector : Selector
  data : α
  order : Nat

/-- Selectors by the element name, by each class and by each attribute that they require. -/
structure SelectorIndex (α : Type) where
  elements : Buckets String (IndexEntry α)
  classes : Buckets String (IndexEntry α)
  attributes : Buckets (String × String) (IndexEntry α)
  size : Nat

namespace SelectorIndex

def empty : SelectorIndex α := ⟨[], [], [], 0⟩

/-- Add a selector to the bucket of every part that it requires. -/
def add (index : SelectorIndex α) (selector : Selector) (data : α) : SelectorIndex α :=
  let entry : IndexEntry α := ⟨selector, data, index.size⟩
  { elements :=
      match selector.required.element with
      | some name => index.elements.add name entry
      | none => index.elements
    classes :=
      selector.required.classes.foldl (fun buckets name => buckets.add name entry) index.classes
    attributes :=
      selector.required.attributes.foldl (fun buckets key => buckets.add key entry)
        index.attributes
    size := index.size + 1 }

/-- The entries in the buckets that the element shares a part with. An attribute that has a value
also shares the bucket of its name without one. -/
def candidates (index : SelectorIndex α) (subject : Compound) : List (IndexEntry α) :=
  (match subject.element with
    | some name => index.elements.get name
    | none => []) ++
  index.elements.get "*" ++
  subject.classes.flatMap index.classes.get ++
  subject.attributes.flatMap fun (name, value) =>
    index.attributes.get (name, value) ++
      if value.isEmpty then [] else index.attributes.get (name, "")

/-- Keep the first of the entries that were added at one time. -/
def distinct : List (IndexEntry α) → List (IndexEntry α)
  | [] => []
  | entry :: rest => entry :: (distinct rest).filter fun other => other.order != entry.order

/-- The candidates that accept the element, each once. -/
def accepting (index : SelectorIndex α) (subject : Compound) : List (IndexEntry α) :=
  distinct ((index.candidates subject).filter fun entry => entry.selector.accepts subject)

/-- Does any selector accept the element, as far as the buckets show? -/
def accepts (index : SelectorIndex α) (subject : Compound) : Bool :=
  !(index.accepting subject).isEmpty

def lookup (index : SelectorIndex α) (subject : Compound) : List α :=
  ((index.accepting subject).mergeSort fun left right => left.order ≤ right.order).map (·.data)

end SelectorIndex

end ViewTemplates
