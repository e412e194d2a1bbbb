import Mathlib.Data.List.Forall2
import ViewTemplates.Forest

/-!
Forests side by side, and the sites of a forest: its values in document order, each with its level
and the row below it.
-/

namespace ViewTemplates.Forest

@[simp] theorem roots_map (f : α → β) (forest : Forest α) :
    (forest.map f).roots = forest.roots.map f := by
  induction forest with
  | nil => rfl
  | cons value below rest _ induction => simp [map, roots, induction]

theorem map_id (forest : Forest α) : forest.map (fun value => value) = forest := by
  induction forest with
  | nil => rfl
  | cons value below rest first second => simp [map, first, second]

theorem map_snd_map_pair (label : β) (forest : Forest α) :
    (forest.map fun value => (label, value)).map Prod.snd = forest := by
  rw [map_map]
  exact forest.map_id

theorem tree_append (value : α) (below rest : Forest α) :
    .tree value below ++ rest = .cons value below rest := rfl

theorem roots_sublist_preorder (forest : Forest α) : forest.roots.Sublist forest.preorder := by
  induction forest with
  | nil => exact .slnil
  | cons value below rest _ induction =>
      exact (induction.trans (List.sublist_append_right _ _)).cons_cons value

theorem forall_mem_preorder_cons {holds : α → Prop} {value : α} {below rest : Forest α} :
    (∀ other ∈ (cons value below rest).preorder, holds other) ↔
      holds value ∧ (∀ other ∈ below.preorder, holds other) ∧
        ∀ other ∈ rest.preorder, holds other := by
  rw [preorder, List.forall_mem_cons, List.forall_mem_append]

/-! Sites. -/

structure Site (α : Type u) where
  level : Nat
  value : α
  row : List α

def Site.map (f : α → β) (site : Site α) : Site β := ⟨site.level, f site.value, site.row.map f⟩

/-- The sites in document order; the top row has the given level. -/
def sites (level : Nat) : Forest α → List (Site α)
  | .nil => []
  | .cons value below rest =>
      ⟨level, value, below.roots⟩ :: (below.sites (level + 1) ++ rest.sites level)

theorem sites_map (f : α → β) (level : Nat) (forest : Forest α) :
    (forest.map f).sites level = (forest.sites level).map (Site.map f) := by
  induction forest generalizing level with
  | nil => rfl
  | cons value below rest first second => simp [map, sites, first, second, Site.map]

theorem map_value_sites (level : Nat) (forest : Forest α) :
    (forest.sites level).map Site.value = forest.preorder := by
  induction forest generalizing level with
  | nil => rfl
  | cons value below rest first second => simp [sites, preorder, first, second]

theorem sites_append (level : Nat) (first second : Forest α) :
    (first ++ second).sites level = first.sites level ++ second.sites level := by
  induction first with
  | nil => rfl
  | cons value below rest _ induction => simp [sites, induction]

/-- The sites of some values; the top row has level one. -/
def sitesOf (wanted : α → Bool) (forest : Forest α) : List (Site α) :=
  (forest.sites 1).filter fun site => wanted site.value

theorem sitesOf_map (f : α → β) (wanted : β → Bool) (forest : Forest α) :
    (forest.map f).sitesOf wanted =
      (forest.sitesOf fun value => wanted (f value)).map (Site.map f) := by
  rw [sitesOf, sites_map, List.filter_map]
  rfl

theorem map_value_sitesOf (wanted : α → Bool) (forest : Forest α) :
    (forest.sitesOf wanted).map Site.value = forest.preorder.filter wanted := by
  rw [← map_value_sites 1, List.filter_map]
  rfl

/-! Values that have nothing below them. -/

/-- Only inner values have something below them. -/
def Bare (inner : α → Bool) : Forest α → Prop
  | .nil => True
  | .cons value below rest =>
      (inner value = false → below = .nil) ∧ below.Bare inner ∧ rest.Bare inner

instance decidableBare (inner : α → Bool) [DecidableEq α] : DecidablePred (Bare inner)
  | .nil => inferInstanceAs (Decidable True)
  | .cons value below rest =>
      let _ := decidableBare inner below
      let _ := decidableBare inner rest
      inferInstanceAs (Decidable ((inner value = false → below = .nil) ∧ below.Bare inner ∧
        rest.Bare inner))

theorem Bare.append {inner : α → Bool} {first second : Forest α} (left : first.Bare inner)
    (right : second.Bare inner) : (first ++ second).Bare inner := by
  induction first with
  | nil => exact right
  | cons value below rest _ induction => exact ⟨left.1, left.2.1, induction left.2.2⟩

theorem Bare.leaf (inner : α → Bool) (value : α) : (leaf value).Bare inner :=
  ⟨fun _ => rfl, trivial, trivial⟩

theorem Bare.mono {inner wider : α → Bool} {forest : Forest α} (bare : forest.Bare inner)
    (weaker : ∀ value, wider value = false → inner value = false) : forest.Bare wider := by
  induction forest with
  | nil => trivial
  | cons value below rest first second =>
      exact ⟨fun leaf => bare.1 (weaker value leaf), first bare.2.1, second bare.2.2⟩

theorem bare_map {f : α → β} {inner : β → Bool} {forest : Forest α} :
    (forest.map f).Bare inner ↔ forest.Bare fun value => inner (f value) := by
  induction forest with
  | nil => rfl
  | cons value below rest first second =>
      have empty : below.map f = .nil ↔ below = .nil := by cases below <;> simp [map]
      simp [map, Bare, first, second, empty]

/-! Forests of one shape. -/

theorem getElem?_of_forall₂ {related : α → β → Prop} {left : List α} {right : List β}
    (aligned : List.Forall₂ related left right) {index : Nat} {value : α}
    (found : left[index]? = some value) :
    ∃ other, right[index]? = some other ∧ related value other := by
  induction aligned generalizing index with
  | nil => cases found
  | cons head _ induction =>
      cases index with
      | zero =>
          cases found
          exact ⟨_, rfl, head⟩
      | succ index => exact induction found

/-- The forests have one shape, and values at the same place are related. -/
inductive Aligned (related : α → β → Prop) : Forest α → Forest β → Prop where
  | nil : Aligned related .nil .nil
  | cons {left : α} {right : β} {leftBelow leftRest : Forest α} {rightBelow rightRest : Forest β} :
      related left right → Aligned related leftBelow rightBelow →
      Aligned related leftRest rightRest →
      Aligned related (.cons left leftBelow leftRest) (.cons right rightBelow rightRest)

namespace Aligned

variable {related : α → β → Prop} {left : Forest α} {right : Forest β}

theorem roots (aligned : Aligned related left right) :
    List.Forall₂ related left.roots right.roots := by
  induction aligned with
  | nil => exact .nil
  | cons head _ _ _ induction => exact .cons head induction

theorem mono {wider : α → β → Prop} (aligned : Aligned related left right)
    (weaker : ∀ one other, related one other → wider one other) : Aligned wider left right := by
  induction aligned with
  | nil => exact .nil
  | cons head _ _ first second => exact .cons (weaker _ _ head) first second

theorem append {leftRest : Forest α} {rightRest : Forest β} (aligned : Aligned related left right)
    (rest : Aligned related leftRest rightRest) :
    Aligned related (left ++ leftRest) (right ++ rightRest) := by
  induction aligned with
  | nil => exact rest
  | cons head below _ _ induction => exact .cons head below induction

theorem map_eq {f : α → γ} {g : β → γ} (aligned : Aligned related left right)
    (equal : ∀ one other, related one other → f one = g other) : left.map f = right.map g := by
  induction aligned with
  | nil => rfl
  | cons head _ _ first second => rw [map, map, equal _ _ head, first, second]

end Aligned

end ViewTemplates.Forest
