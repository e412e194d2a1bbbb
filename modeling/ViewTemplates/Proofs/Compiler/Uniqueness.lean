import Mathlib.Data.List.Sort
import ViewTemplates.Proofs.Compiler.Factories

/-!
The specification of a compiled template leaves no choice: two factories that a source is compiled
to are the same, with every factory in them.
-/

namespace ViewTemplates

attribute [ext] ElementBinder

namespace Setup

variable {setup : Setup}

theorem eq_of_ascending {number : α → Nat} {left right : List α}
    (ascending : (left.map number).Pairwise (· < ·))
    (otherAscending : (right.map number).Pairwise (· < ·)) (subset : left ⊆ right)
    (superset : right ⊆ left) : left = right := by
  let before (one other : α) : Prop := number one < number other
  have irreflexive : Std.Irrefl before := ⟨fun _ => Nat.lt_irrefl _⟩
  have antisymmetric : Std.Antisymm before :=
    ⟨fun _ _ less greater => absurd greater (Nat.lt_asymm less)⟩
  exact List.Subset.antisymm_of_pairwise (List.pairwise_map.mp ascending)
    (List.pairwise_map.mp otherAscending) subset superset

theorem SlotFits.isBound {origin : Origin} {kind : SlotKind Factory}
    (fits : setup.SlotFits origin kind) : setup.isBound origin = true := by
  cases fits with
  | text requires => exact requires
  | anchor => rfl

/-- For the same nodes the binders hold the same views. -/
def NestAlike (setup : Setup) (origins : Forest Origin)
    (first second : List (ElementBinder Factory)) : Prop :=
  ∀ decorators content view other, setup.Nests origins first decorators content view →
    setup.Nests origins second decorators content other → view = other

theorem NestAlike.symm {origins : Forest Origin} {first second : List (ElementBinder Factory)}
    (alike : setup.NestAlike origins first second) : setup.NestAlike origins second first :=
  fun decorators content view other nests otherNests =>
    (alike decorators content other view otherNests nests).symm

section binders
variable {origins : Forest Origin} {first second : List (ElementBinder Factory)}
  (alike : setup.NestAlike origins first second) {binder other : ElementBinder Factory}
  (member : binder ∈ first) (otherMember : other ∈ second)
  (indexed : binder.elementIndex = other.elementIndex)
include alike member otherMember indexed

theorem slots_subset {row : List Origin}
    (found : origins.rowAt Origin.isElement binder.elementIndex = some row)
    (fits : setup.SlotsFit row binder.slots) (otherFits : setup.SlotsFit row other.slots) :
    binder.slots ⊆ other.slots := by
  rintro ⟨position, kind⟩ inside
  obtain ⟨origin, placed, slotFits⟩ := fits.sound _ inside
  obtain ⟨⟨place, otherKind⟩, twin, equal⟩ :=
    otherFits.complete position origin placed slotFits.isBound
  cases equal
  obtain ⟨again, otherPlaced, twinFits⟩ := otherFits.sound _ twin
  rw [placed] at otherPlaced
  cases otherPlaced
  cases slotFits with
  | text =>
      cases twinFits with
      | text => exact twin
  | @anchor kind content directive view claimed =>
      cases twinFits with
      | @anchor _ _ otherDirective otherView otherClaimed =>
          rw [claimed] at otherClaimed
          cases otherClaimed
          have nests : setup.Nests origins first (setup.decorators kind) content view :=
            .anchor member found inside placed rfl
          have otherNests : setup.Nests origins second (setup.decorators kind) content otherView :=
            .anchor otherMember (indexed ▸ found) twin placed rfl
          rw [alike _ _ _ _ nests otherNests]
          exact twin

theorem slots_eq {row : List Origin}
    (found : origins.rowAt Origin.isElement binder.elementIndex = some row)
    (fits : setup.SlotsFit row binder.slots) (otherFits : setup.SlotsFit row other.slots) :
    binder.slots = other.slots :=
  eq_of_ascending fits.ascending otherFits.ascending
    (slots_subset alike member otherMember indexed found fits otherFits)
    (slots_subset alike.symm otherMember member indexed.symm (indexed ▸ found) otherFits fits)

theorem role_eq {origin : Origin}
    (found : origins.valueAt Origin.isElement binder.elementIndex = some origin)
    (fits : setup.RoleFits origin binder.role) (otherFits : setup.RoleFits origin other.role) :
    binder.role = other.role := by
  have otherFound : origins.valueAt Origin.isElement other.elementIndex = some origin :=
    indexed ▸ found
  generalize role : binder.role = kind at fits
  generalize otherRole : other.role = otherKind at otherFits
  cases fits with
  | decorated unclaimed =>
      cases otherFits with
      | decorated => rfl
      | component claimed =>
          rw [unclaimed] at claimed
          cases claimed
  | @component kind directive source view claimed viewFits =>
      cases otherFits with
      | decorated unclaimed =>
          rw [unclaimed] at claimed
          cases claimed
      | @component _ otherDirective otherSource otherView otherClaimed otherViewFits =>
          rw [claimed] at otherClaimed
          cases otherClaimed
          cases source with
          | compiled factory =>
              cases viewFits
              cases otherViewFits
              rfl
          | inline markup =>
              obtain ⟨forest, events, parsed⟩ := viewFits
              have nests : setup.Nests origins first [] forest view :=
                .component member found claimed role parsed
              have otherNests : setup.Nests origins second [] forest otherView :=
                .component otherMember otherFound claimed otherRole parsed
              rw [alike _ _ _ _ nests otherNests]
  | @template kind content directive view claimed =>
      cases otherFits with
      | @template _ _ otherDirective otherView otherClaimed =>
          rw [claimed] at otherClaimed
          cases otherClaimed
          have nests : setup.Nests origins first [] content view := .template member found role
          have otherNests : setup.Nests origins second [] content otherView :=
            .template otherMember otherFound otherRole
          rw [alike _ _ _ _ nests otherNests]

theorem binder_eq {index : Nat} {site : Forest.Site Origin}
    (sited : (origins.sitesOf Origin.isElement)[index]? = some site)
    (atIndex : binder.elementIndex = some index) (fits : setup.BinderFits site binder)
    (otherFits : setup.BinderFits site other) : binder = other := by
  have row : origins.rowAt Origin.isElement binder.elementIndex = some site.row := by
    rw [atIndex, Forest.rowAt, sited]
    rfl
  have value : origins.valueAt Origin.isElement binder.elementIndex = some site.value := by
    rw [atIndex, Forest.valueAt, sited]
    rfl
  exact ElementBinder.ext (fits.level.trans otherFits.level.symm) indexed
    (fits.decorators.trans otherFits.decorators.symm)
    (role_eq alike member otherMember indexed value fits.role otherFits.role)
    (slots_eq alike member otherMember indexed row fits.slots otherFits.slots)

theorem root_eq {decorators : List DirectiveRef}
    (fits : setup.RootFits decorators origins.roots binder)
    (otherFits : setup.RootFits decorators origins.roots other) : binder = other := by
  have row : origins.rowAt Origin.isElement binder.elementIndex = some origins.roots := by
    rw [fits.elementIndex]
    rfl
  exact ElementBinder.ext (fits.level.trans otherFits.level.symm) indexed
    (fits.decorators.trans otherFits.decorators.symm) (fits.role.trans otherFits.role.symm)
    (slots_eq alike member otherMember indexed row fits.slots otherFits.slots)

end binders

theorem binders_subset {origins : Forest Origin} {first second : List (ElementBinder Factory)}
    {root otherRoot : ElementBinder Factory}
    (alike : setup.NestAlike origins (root :: first) (otherRoot :: second))
    (fits : setup.BindersFit origins first) (otherFits : setup.BindersFit origins second) :
    first ⊆ second := by
  intro binder member
  obtain ⟨indices, listed, _⟩ := fits.indexed
  have among : binder.elementIndex ∈ indices.map some :=
    listed ▸ List.mem_map_of_mem member
  obtain ⟨index, _, atIndex⟩ := List.mem_map.mp among
  obtain ⟨site, sited, here⟩ := fits.sound binder member index atIndex.symm
  have bound := (fits.complete index site sited).mp ⟨binder, member, atIndex.symm⟩
  obtain ⟨other, otherMember, otherIndex⟩ := (otherFits.complete index site sited).mpr bound
  obtain ⟨again, otherSited, there⟩ := otherFits.sound other otherMember index otherIndex
  rw [sited] at otherSited
  cases otherSited
  have equal : binder = other :=
    binder_eq alike (List.mem_cons_of_mem _ member) (List.mem_cons_of_mem _ otherMember)
      (atIndex.symm.trans otherIndex.symm) sited atIndex.symm here there
  exact equal ▸ otherMember

theorem BindersFit.ascending {origins : Forest Origin} {binders : List (ElementBinder Factory)}
    (fits : setup.BindersFit origins binders) :
    (binders.map fun binder => binder.elementIndex.getD 0).Pairwise (· < ·) := by
  obtain ⟨indices, listed, ascending⟩ := fits.indexed
  have numbers : binders.map (fun binder => binder.elementIndex.getD 0) = indices := by
    have read := congrArg (List.map fun index : Option Nat => index.getD 0) listed
    rw [List.map_map, List.map_map] at read
    exact read.trans (List.map_id indices)
  rw [numbers]
  exact ascending

/-- A source is compiled to one factory only. -/
theorem Compiles.unique {decorators : List DirectiveRef} {source : Forest NodeKind}
    {factory other : Factory} (compiles : setup.Compiles decorators source factory)
    (again : setup.Compiles decorators source other) : factory = other := by
  induction compiles generalizing other with
  | @intro decorators source root binders bare rootFits bindersFit nested induction =>
      cases again with
      | @intro _ _ otherRoot otherBinders _ otherRootFits otherBindersFit otherNested =>
          have alike : setup.NestAlike (setup.origins source) (root :: binders)
              (otherRoot :: otherBinders) :=
            fun inner content view other nests otherNests =>
              induction inner content view nests (otherNested inner content other otherNests)
          have roots : root = otherRoot :=
            root_eq alike List.mem_cons_self List.mem_cons_self
              (rootFits.elementIndex.trans otherRootFits.elementIndex.symm) rootFits otherRootFits
          have elements : binders = otherBinders :=
            eq_of_ascending bindersFit.ascending otherBindersFit.ascending
              (binders_subset alike bindersFit otherBindersFit)
              (binders_subset alike.symm otherBindersFit bindersFit)
          rw [roots, elements]

theorem Viewed.unique {source : ComponentSource} {view other : Factory}
    (viewed : setup.Viewed source view) (again : setup.Viewed source other) : view = other := by
  cases source with
  | compiled factory => exact viewed.trans again.symm
  | inline markup =>
      obtain ⟨forest, events, parsed, compiles⟩ := viewed
      obtain ⟨otherForest, otherEvents, otherParsed, otherCompiles⟩ := again
      rw [parsed] at otherParsed
      cases otherParsed
      exact compiles.unique otherCompiles

end Setup

end ViewTemplates
