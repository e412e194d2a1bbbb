import Mathlib.Logic.Relation
import ViewTemplates.Proofs.Compiler.Components

/-!
What can be wrong with a markup text and with the components in it, said of the texts alone: a text
that cannot be read, an element with two claims, and a component that needs itself. All of them are
listed in the order in which a walk meets them, the markup of a component at its element, before
the element's own content.
-/

namespace ViewTemplates.Setup

variable (setup : Setup)

/-- The component with this index brings the markup along. -/
def InlineMarkup (component : Nat) (markup : String) : Prop :=
  ∃ directive, setup.registry.get? component = some directive ∧
    directive.kind = .component (.inline markup)

/-- An element of the markup is claimed by the component, which brings markup along. -/
def Uses (markup : String) (component : Nat) : Prop :=
  ∃ forest events, Markup.parse markup = .ok (forest, events) ∧
    ∃ kind ∈ forest.preorder, ∃ directive inner,
      .component directive (.inline inner) ∈ setup.claims kind ∧ directive.index = component

/-- The markup of one component uses the other. -/
def Needs (component other : Nat) : Prop :=
  ∃ markup, setup.InlineMarkup component markup ∧ setup.Uses markup other

/-- The texts that belong to a source: its own, and the markup of every component that is used in
one of them. -/
inductive Reaches (source : String) : String → Prop where
  | source : Reaches source source
  | component {markup inner : String} {component : Nat} :
      Reaches source markup → setup.Uses markup component →
      setup.InlineMarkup component inner → Reaches source inner

structure Compilable (source : String) : Prop where
  readable : ∀ markup, setup.Reaches source markup →
    ∃ forest events, Markup.parse markup = .ok (forest, events)
  unambiguous : ∀ markup forest events, setup.Reaches source markup →
    Markup.parse markup = .ok (forest, events) →
    ∀ kind ∈ forest.preorder, (setup.claims kind).length ≤ 1
  acyclic : ∀ markup component, setup.Reaches source markup → setup.Uses markup component →
    ¬Relation.TransGen setup.Needs component component

/-- How many directives are not among those inside which a text is visited. -/
def unvisited (within : List Nat) : Nat :=
  ((List.range setup.registry.size).filter (· ∉ within)).length

variable {setup}

theorem unvisited_cons {within : List Nat} {component : Nat}
    (registered : component < setup.registry.size) (fresh : component ∉ within) :
    setup.unvisited (component :: within) < setup.unvisited within := by
  have without : (List.range setup.registry.size).filter (· ∉ component :: within) =
      ((List.range setup.registry.size).filter (· ∉ within)).filter (· ≠ component) := by
    rw [List.filter_filter]
    congr 1
    funext index
    simp only [List.mem_cons, not_or, Bool.decide_and]
  rw [unvisited, without]
  apply List.length_filter_lt_length_iff_exists.mpr
  refine ⟨component, List.mem_filter.mpr ⟨List.mem_range.mpr registered, ?_⟩, ?_⟩
  · exact decide_eq_true fresh
  · simp

theorem inlineMarkup_of_mem_claims {kind : NodeKind} {directive : DirectiveRef} {markup : String}
    (member : .component directive (.inline markup) ∈ setup.claims kind) :
    setup.InlineMarkup directive.index markup :=
  registered_of_mem_claims member

theorem uses_of_claims {markup : String} {forest : Forest NodeKind} {events : List Event}
    (parsed : Markup.parse markup = .ok (forest, events)) {kind : NodeKind}
    (member : kind ∈ forest.preorder) {directive : DirectiveRef} {inner : String}
    (claimed : setup.claims kind = [.component directive (.inline inner)]) :
    setup.Uses markup directive.index :=
  ⟨forest, events, parsed, kind, member, directive, inner, claimed ▸ List.mem_singleton_self _,
    rfl⟩

theorem inlineMarkup_of_claims {kind : NodeKind} {directive : DirectiveRef} {markup : String}
    (claimed : setup.claims kind = [.component directive (.inline markup)]) :
    setup.InlineMarkup directive.index markup :=
  inlineMarkup_of_mem_claims (claimed ▸ List.mem_singleton_self _)

theorem Uses.inlineMarkup {markup : String} {component : Nat}
    (uses : setup.Uses markup component) : ∃ inner, setup.InlineMarkup component inner := by
  obtain ⟨_, _, _, _, _, _, inner, claim, rfl⟩ := uses
  exact ⟨inner, inlineMarkup_of_mem_claims claim⟩

theorem InlineMarkup.unique {component : Nat} {markup other : String}
    (inline : setup.InlineMarkup component markup) (again : setup.InlineMarkup component other) :
    markup = other := by
  obtain ⟨directive, known, kind⟩ := inline
  obtain ⟨same, sameKnown, sameKind⟩ := again
  rw [known] at sameKnown
  cases sameKnown
  rw [kind] at sameKind
  cases sameKind
  rfl

theorem InlineMarkup.registered {component : Nat} {markup : String}
    (inline : setup.InlineMarkup component markup) : component < setup.registry.size := by
  obtain ⟨_, known, _⟩ := inline
  exact (List.getElem?_eq_some_iff.mp known).1

variable (setup)

mutual

/-- Everything that is wrong with a text, the texts of its components included, inside these
components. -/
def faults (within : List Nat) (markup : String) : List Error :=
  match Markup.parse markup with
  | .error error => [.markup error]
  | .ok (forest, _) => forest.preorder.flatMap fun kind => faultsAt within kind
termination_by (setup.unvisited within, 1)

/-- What is wrong at one node, without the nodes below it. -/
def faultsAt (within : List Nat) (kind : NodeKind) : List Error :=
  match _claimed : setup.claims kind with
  | [.component directive (.inline markup)] =>
      if directive.index ∈ within then [.recursiveComponent directive.name]
      else faults (directive.index :: within) markup
  | first :: second :: _ =>
      [.conflictingDirectives (kind.tag?.getD "") first.directive.name second.directive.name]
  | _ => []
termination_by (setup.unvisited within, 0)
decreasing_by
  refine Prod.Lex.left _ _ (unvisited_cons ?_ ‹_›)
  exact (inlineMarkup_of_mem_claims (_claimed ▸ List.mem_singleton_self _)).registered

end

variable {setup}

theorem faultsAt_of_claims {within : List Nat} {kind : NodeKind} {directive : DirectiveRef}
    {markup : String} (claimed : setup.claims kind = [.component directive (.inline markup)]) :
    setup.faultsAt within kind =
      if directive.index ∈ within then [.recursiveComponent directive.name]
      else setup.faults (directive.index :: within) markup := by
  rw [faultsAt.eq_def]
  split
  next again =>
    rw [claimed] at again
    cases again
    rfl
  next several =>
    rw [claimed] at several
    cases several
  next other _ =>
    exact absurd claimed (other directive markup)

theorem faultsAt_of_conflict {within : List Nat} {kind : NodeKind} {first second : Claim}
    {more : List Claim} (claimed : setup.claims kind = first :: second :: more) :
    setup.faultsAt within kind =
      [.conflictingDirectives (kind.tag?.getD "") first.directive.name
        second.directive.name] := by
  rw [faultsAt.eq_def]
  split
  next alone =>
    rw [claimed] at alone
    cases alone
  next again =>
    rw [claimed] at again
    cases again
    rfl
  next _ other =>
    exact absurd claimed (other first second more)

/-- Nothing is wrong at a node that is claimed once at most, and not by a component's markup. -/
theorem faultsAt_of_quiet {within : List Nat} {kind : NodeKind}
    (unambiguous : (setup.claims kind).length ≤ 1)
    (quiet : ∀ directive markup,
      setup.claims kind ≠ [.component directive (.inline markup)]) :
    setup.faultsAt within kind = [] := by
  rw [faultsAt.eq_def]
  split
  next alone => exact absurd alone (quiet _ _)
  next several =>
    rw [several, List.length_cons, List.length_cons] at unambiguous
    omega
  next => rfl

theorem faultsAt_of_unclaimed {within : List Nat} {kind : NodeKind}
    (unclaimed : setup.claims kind = []) : setup.faultsAt within kind = [] :=
  faultsAt_of_quiet (unclaimed ▸ Nat.zero_le 1) fun _ _ claimed => nomatch unclaimed ▸ claimed

theorem faultsAt_of_template {within : List Nat} {kind : NodeKind} {directive : DirectiveRef}
    (claimed : setup.claims kind = [.template directive]) : setup.faultsAt within kind = [] :=
  faultsAt_of_quiet (claimed ▸ Nat.le_refl 1) fun _ _ other => nomatch claimed ▸ other

theorem faultsAt_of_compiled {within : List Nat} {kind : NodeKind} {directive : DirectiveRef}
    {factory : Factory} (claimed : setup.claims kind = [.component directive (.compiled factory)]) :
    setup.faultsAt within kind = [] :=
  faultsAt_of_quiet (claimed ▸ Nat.le_refl 1) fun _ _ other => nomatch claimed ▸ other

/-- A text cannot be read, an element is claimed twice, or a component needs itself. -/
theorem cases_of_mem_faults {within : List Nat} {markup : String} {error : Error}
    (member : error ∈ setup.faults within markup) :
    (∃ fault, error = .markup fault) ∨
      (∃ element first second, error = .conflictingDirectives element first second) ∨
      ∃ name, error = .recursiveComponent name := by
  induction count : setup.unvisited within using Nat.strongRecOn
    generalizing within markup with
  | ind _ induction =>
      subst count
      rw [faults] at member
      cases parsed : Markup.parse markup with
      | error fault =>
          rw [parsed] at member
          exact .inl ⟨fault, List.mem_singleton.mp member⟩
      | ok value =>
          rw [parsed] at member
          obtain ⟨kind, _, here⟩ := List.mem_flatMap.mp member
          rw [faultsAt.eq_def] at here
          split at here
          next directive inner claimed =>
            split at here
            · exact .inr (.inr ⟨_, List.mem_singleton.mp here⟩)
            next fresh =>
              have registered := (inlineMarkup_of_claims claimed).registered
              exact induction _ (unvisited_cons registered fresh) here rfl
          · exact .inr (.inl ⟨_, _, _, List.mem_singleton.mp here⟩)
          · cases here

/-! A source has no faults exactly where it can be compiled. -/

theorem claims_of_mem {kind : NodeKind} {claim : Claim} (member : claim ∈ setup.claims kind)
    (unambiguous : (setup.claims kind).length ≤ 1) : setup.claims kind = [claim] := by
  rcases listed : setup.claims kind with _ | ⟨first, _ | ⟨second, more⟩⟩
  · rw [listed] at member
    cases member
  · rw [listed] at member
    rw [List.mem_singleton.mp member]
  · rw [listed, List.length_cons, List.length_cons] at unambiguous
    omega

/-- These components need the other one. -/
def LeadTo (setup : Setup) (within : List Nat) (component : Nat) : Prop :=
  ∀ outer ∈ within, Relation.TransGen setup.Needs outer component

theorem LeadTo.cons {within : List Nat} {component other : Nat} {markup : String}
    (lead : setup.LeadTo within component) (inline : setup.InlineMarkup component markup)
    (uses : setup.Uses markup other) : setup.LeadTo (component :: within) other := by
  intro outer member
  have needs : setup.Needs component other := ⟨markup, inline, uses⟩
  rcases List.mem_cons.mp member with rfl | member
  · exact .single needs
  · exact .tail (lead outer member) needs

theorem Compilable.faults_eq_nil {source : String} (compilable : setup.Compilable source)
    {within : List Nat} {markup : String} (reaches : setup.Reaches source markup)
    (lead : ∀ component, setup.Uses markup component → setup.LeadTo within component) :
    setup.faults within markup = [] := by
  -- Every component that is entered is one directive less to visit.
  induction count : setup.unvisited within using Nat.strongRecOn
    generalizing within markup with
  | ind _ induction =>
      subst count
      obtain ⟨forest, events, parsed⟩ := compilable.readable markup reaches
      rw [faults, parsed]
      refine List.flatMap_eq_nil_iff.mpr fun kind member => ?_
      have unambiguous := compilable.unambiguous markup forest events reaches parsed kind member
      rcases Classical.em (∃ directive inner,
        setup.claims kind = [.component directive (.inline inner)]) with
        ⟨directive, inner, claimed⟩ | quiet
      · have uses := uses_of_claims parsed member claimed
        have inline := inlineMarkup_of_claims claimed
        have fresh : directive.index ∉ within := fun repeated =>
          compilable.acyclic markup _ reaches uses (lead _ uses _ repeated)
        rw [faultsAt_of_claims claimed, if_neg fresh]
        exact induction _ (unvisited_cons inline.registered fresh)
          (reaches.component uses inline) (fun _ => (lead _ uses).cons inline) rfl
      · exact faultsAt_of_quiet unambiguous fun directive inner claimed =>
          quiet ⟨directive, inner, claimed⟩

section clean
variable {within : List Nat} {markup : String} (clean : setup.faults within markup = [])
include clean

theorem parse_of_clean : ∃ forest events, Markup.parse markup = .ok (forest, events) := by
  rw [faults] at clean
  cases parsed : Markup.parse markup with
  | error error =>
      rw [parsed] at clean
      cases clean
  | ok value => exact ⟨value.1, value.2, rfl⟩

theorem faultsAt_of_clean {forest : Forest NodeKind} {events : List Event}
    (parsed : Markup.parse markup = .ok (forest, events)) {kind : NodeKind}
    (member : kind ∈ forest.preorder) : setup.faultsAt within kind = [] := by
  rw [faults, parsed] at clean
  exact List.flatMap_eq_nil_iff.mp clean kind member

theorem claims_of_clean {forest : Forest NodeKind} {events : List Event}
    (parsed : Markup.parse markup = .ok (forest, events)) {kind : NodeKind}
    (member : kind ∈ forest.preorder) : (setup.claims kind).length ≤ 1 := by
  have quiet := faultsAt_of_clean clean parsed member
  rcases claimed : setup.claims kind with _ | ⟨first, _ | ⟨second, more⟩⟩
  · exact Nat.zero_le 1
  · exact Nat.le_refl 1
  · rw [faultsAt_of_conflict claimed] at quiet
    cases quiet

/-- A component that is used in a text without faults is entered for the first time. -/
theorem clean_of_uses {component : Nat} {inner : String} (uses : setup.Uses markup component)
    (inline : setup.InlineMarkup component inner) :
    component ∉ within ∧ setup.faults (component :: within) inner = [] := by
  obtain ⟨forest, events, parsed, kind, member, directive, again, claim, rfl⟩ := uses
  have claimed := claims_of_mem claim (claims_of_clean clean parsed member)
  have quiet := faultsAt_of_clean clean parsed member
  rw [faultsAt_of_claims claimed] at quiet
  split at quiet
  · cases quiet
  next fresh =>
    rw [inline.unique (inlineMarkup_of_mem_claims claim)]
    exact ⟨fresh, quiet⟩

theorem clean_of_reaches {inner : String} (reaches : setup.Reaches markup inner) :
    ∃ more, setup.faults more inner = [] := by
  induction reaches with
  | source => exact ⟨within, clean⟩
  | component _ uses inline induction =>
      obtain ⟨more, clean⟩ := induction
      exact ⟨_, (clean_of_uses clean uses inline).2⟩

end clean

/-- A component that others need is not one inside which they are visited. -/
theorem clean_of_transGen {component other : Nat}
    (needs : Relation.TransGen setup.Needs component other) {within : List Nat} {markup : String}
    (inline : setup.InlineMarkup component markup) (clean : setup.faults within markup = []) :
    other ∉ within ∧ ∀ inner, setup.InlineMarkup other inner →
      ∃ more, within ⊆ more ∧ setup.faults more inner = [] := by
  induction needs with
  | single needs =>
      obtain ⟨again, same, uses⟩ := needs
      cases inline.unique same
      constructor
      · obtain ⟨inner, inside⟩ := uses.inlineMarkup
        exact (clean_of_uses clean uses inside).1
      · intro inner inside
        exact ⟨_, List.subset_cons_self _ _, (clean_of_uses clean uses inside).2⟩
  | tail _ needs induction =>
      obtain ⟨middle, inside, uses⟩ := needs
      obtain ⟨more, subset, clear⟩ := induction.2 middle inside
      constructor
      · obtain ⟨inner, inside⟩ := uses.inlineMarkup
        exact fun member => (clean_of_uses clear uses inside).1 (subset member)
      · intro inner inside
        exact ⟨_, List.subset_cons_of_subset _ subset, (clean_of_uses clear uses inside).2⟩

theorem compilable_of_clean {within : List Nat} {source : String}
    (clean : setup.faults within source = []) : setup.Compilable source where
  readable markup reaches := by
    obtain ⟨more, clear⟩ := clean_of_reaches clean reaches
    exact parse_of_clean clear
  unambiguous markup forest events reaches parsed kind member := by
    obtain ⟨more, clear⟩ := clean_of_reaches clean reaches
    exact claims_of_clean clear parsed member
  acyclic markup component reaches uses cycle := by
    obtain ⟨more, clear⟩ := clean_of_reaches clean reaches
    obtain ⟨inner, inline⟩ := uses.inlineMarkup
    exact (clean_of_transGen cycle inline (clean_of_uses clear uses inline).2).1
      List.mem_cons_self

theorem Compilable.not_transGen {markup : String} (compilable : setup.Compilable markup)
    {component : Nat} (inline : setup.InlineMarkup component markup) :
    ¬Relation.TransGen setup.Needs component component := by
  intro cycle
  obtain ⟨other, ⟨again, same, uses⟩, back⟩ := Relation.TransGen.head'_iff.mp cycle
  cases inline.unique same
  refine compilable.acyclic markup other .source uses ?_
  exact Relation.TransGen.tail' back ⟨markup, inline, uses⟩

/-- A source can be compiled exactly if nothing is wrong with it. -/
theorem compilable_iff {source : String} :
    setup.Compilable source ↔ setup.faults [] source = [] :=
  ⟨fun compilable => compilable.faults_eq_nil .source fun _ _ => nofun, compilable_of_clean⟩

end ViewTemplates.Setup
