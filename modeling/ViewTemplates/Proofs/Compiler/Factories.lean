import ViewTemplates.Proofs.Compiler.Binders

/-!
Factories made of marks. A factory whose marks fit the origins of a source is what the source is
compiled to, with every factory in it.
-/

namespace ViewTemplates.Setup

variable {setup : Setup}

/-- The view is one of the component: the given one, or compiled from its markup. -/
def Viewed (setup : Setup) : ComponentSource → Factory → Prop
  | .compiled factory, view => view = factory
  | .inline markup, view => ∃ forest events, Markup.parse markup = .ok (forest, events) ∧
      setup.Compiles [] forest view

theorem Viewed.viewFits {source : ComponentSource} {view : Factory}
    (viewed : setup.Viewed source view) : ViewFits source view := by
  cases source with
  | compiled factory => exact viewed
  | inline markup =>
      obtain ⟨forest, events, parsed, _⟩ := viewed
      exact ⟨forest, events, parsed⟩

def Ascending (setup : Setup) : Prop :=
  ∀ kind, ((setup.decorators kind).map (·.index)).Pairwise (· < ·)

theorem ReadOff.binderFits {compiles : List DirectiveRef → Forest NodeKind → Factory → Prop}
    {viewed : ComponentSource → Factory → Prop} {site : Forest.Site Origin}
    {binder : ElementBinder Factory} (ascending : setup.Ascending)
    (views : ∀ source view, viewed source view → ViewFits source view)
    (readOff : setup.ReadOff compiles viewed site binder) (index : Option Nat) :
    setup.BinderFits site { binder with elementIndex := index } := by
  obtain ⟨fits, aligned⟩ := readOff
  cases fits with
  | decorated _ unclaimed =>
      exact ⟨rfl, rfl, ascending _, .decorated unclaimed, slotsFit_of_aligned aligned⟩
  | component _ claimed fitting =>
      exact ⟨rfl, rfl, ascending _, .component claimed (views _ _ fitting),
        slotsFit_of_aligned aligned⟩
  | emptied _ claimed _ =>
      exact ⟨rfl, rfl, ascending _, .template claimed, slotsFit_of_aligned aligned⟩

section marks
variable {compiles : List DirectiveRef → Forest NodeKind → Factory → Prop}
  {viewed : ComponentSource → Factory → Prop} {origins : Forest Origin}
  {marks : Forest (Mark Factory)}
  (aligned : Forest.Aligned (setup.MarkFits compiles viewed) origins marks)
  (bare : origins.Bare Origin.isElement)
include aligned bare

theorem readOff_of_mem {binder : ElementBinder Factory}
    (member : binder ∈ Mark.indexed 0 (Mark.bindersFrom 1 marks)) :
    ∃ (index : Nat) (site : Forest.Site Origin) (found : ElementBinder Factory),
      (origins.sitesOf Origin.isElement)[index]? = some site ∧
      setup.ReadOff compiles viewed site found ∧
      binder = { found with elementIndex := some index } := by
  obtain ⟨index, found, atIndex, _, equal⟩ := Mark.exists_of_mem_indexed member
  obtain ⟨site, sited, readOff⟩ :=
    Forest.getElem?_of_forall₂ (bindersFrom_readOff aligned bare 1).flip atIndex
  rw [Nat.zero_add] at equal
  exact ⟨index, site, found, sited, readOff, equal⟩

theorem mem_indexed_iff {index : Nat} {site : Forest.Site Origin}
    (sited : (origins.sitesOf Origin.isElement)[index]? = some site) :
    (∃ binder ∈ Mark.indexed 0 (Mark.bindersFrom 1 marks),
      binder.elementIndex = some index) ↔ setup.IsBoundSite site := by
  obtain ⟨found, atIndex, readOff⟩ :=
    Forest.getElem?_of_forall₂ (bindersFrom_readOff aligned bare 1) sited
  constructor
  · rintro ⟨binder, member, indexed⟩
    obtain ⟨other, again, atOther, bound, rfl⟩ := Mark.exists_of_mem_indexed member
    cases indexed
    rw [Nat.zero_add] at atIndex
    rw [atOther] at atIndex
    cases atIndex
    exact readOff.hasBindings_iff.mp bound
  · intro bound
    refine ⟨_, Mark.mem_indexed 0 atIndex (readOff.hasBindings_iff.mpr bound), ?_⟩
    simp

theorem bindersFit_of_aligned (ascending : setup.Ascending)
    (views : ∀ source view, viewed source view → ViewFits source view) :
    setup.BindersFit origins (Mark.indexed 0 (Mark.bindersFrom 1 marks)) := by
  constructor
  case indexed =>
    obtain ⟨indices, equal, ascends, _⟩ := Mark.ascending_indexed 0 (Mark.bindersFrom 1 marks)
    exact ⟨indices, equal, ascends⟩
  case complete =>
    intro index site sited
    exact mem_indexed_iff aligned bare sited
  case sound =>
    intro binder member index indexed
    obtain ⟨other, site, found, sited, readOff, rfl⟩ := readOff_of_mem aligned bare member
    cases indexed
    exact ⟨site, sited, readOff.binderFits ascending views _⟩

theorem slots_of_rowAt {decorators : List DirectiveRef} {binder : ElementBinder Factory}
    (member : binder ∈ Mark.binders decorators marks) {row : List Origin}
    (found : origins.rowAt Origin.isElement binder.elementIndex = some row) :
    ∃ below : Forest (Mark Factory), binder.slots = Mark.slotsFrom 0 below ∧
      List.Forall₂ (setup.MarkFits compiles viewed) row below.roots := by
  rw [Mark.binders_eq] at member
  rcases List.mem_cons.mp member with rfl | member
  · cases found
    exact ⟨marks, rfl, aligned.roots⟩
  · obtain ⟨index, site, other, sited, readOff, rfl⟩ := readOff_of_mem aligned bare member
    simp only [Forest.rowAt, sited, Option.map_some] at found
    cases found
    obtain ⟨_, rows⟩ := readOff
    exact ⟨_, rfl, rows⟩

theorem role_of_valueAt {decorators : List DirectiveRef} {binder : ElementBinder Factory}
    (member : binder ∈ Mark.binders decorators marks) {origin : Origin}
    (found : origins.valueAt Origin.isElement binder.elementIndex = some origin) :
    ∃ kind decorators, setup.MarkFits compiles viewed origin
      (.element kind decorators binder.role) := by
  rw [Mark.binders_eq] at member
  rcases List.mem_cons.mp member with rfl | member
  · cases found
  · obtain ⟨index, site, other, sited, readOff, rfl⟩ := readOff_of_mem aligned bare member
    simp only [Forest.valueAt, sited, Option.map_some] at found
    cases found
    obtain ⟨fits, _⟩ := readOff
    exact ⟨_, _, fits⟩

end marks

/-- Every view in the binders was made from the nodes that it is for. -/
theorem compiles_of_nests {origins : Forest Origin} {marks : Forest (Mark Factory)}
    (aligned : Forest.Aligned (setup.MarkFits setup.Compiles setup.Viewed) origins marks)
    (bare : origins.Bare Origin.isElement) (decorators : List DirectiveRef)
    {inner : List DirectiveRef} {content : Forest NodeKind} {view : Factory}
    (nests : setup.Nests origins (Mark.binders decorators marks) inner content view) :
    setup.Compiles inner content view := by
  cases nests with
  | anchor member rowFound slotMember found anchored =>
      obtain ⟨below, slots, rows⟩ := slots_of_rowAt aligned bare member rowFound
      rw [slots] at slotMember
      exact compiles_of_slot rows slotMember found anchored
  | template member found role =>
      obtain ⟨kind, _, fits⟩ := role_of_valueAt aligned bare member found
      rw [role] at fits
      cases fits with
      | emptied _ _ made => exact made
  | component member found claimed role parsed =>
      obtain ⟨kind, _, fits⟩ := role_of_valueAt aligned bare member found
      rw [role] at fits
      cases fits with
      | component _ again viewed =>
          rw [claimed] at again
          cases again
          obtain ⟨forest, events, read, made⟩ := viewed
          rw [parsed] at read
          cases read
          exact made

theorem closed_compiles (ascending : setup.Ascending) :
    setup.Closed setup.Compiles setup.Viewed := by
  intro decorators source marks bare aligned
  have bareOrigins := setup.bare_origins bare
  rw [Factory.ofMarks, Mark.binders_eq, ← aligned.map_eq fun _ _ fits => MarkFits.kind_eq fits]
  refine .intro bare ?top ?elements ?nested
  case top => exact ⟨rfl, rfl, rfl, rfl, slotsFit_of_aligned aligned.roots⟩
  case elements =>
    exact bindersFit_of_aligned aligned bareOrigins ascending fun _ _ viewed => viewed.viewFits
  case nested =>
    intro inner content view nests
    exact compiles_of_nests aligned bareOrigins decorators nests

end ViewTemplates.Setup
