import ViewTemplates.Document.Basic
import ViewTemplates.Proofs.Directive.Order

/-!
Which directives are found on an element: exactly the registered ones of which some alternative
describes it. A registration that fails leaves no trace.
-/

namespace ViewTemplates

def Directive.isReadable (directive : Directive) : Bool :=
  match Selector.parse directive.selector with
  | .ok _ => true
  | .error _ => false

/-- The node is an element that an alternative of the directive's selector describes. -/
def Directive.Selects (directive : Directive) (kind : NodeKind) : Prop :=
  ∃ name attributes selectors, kind = .element name attributes ∧
    Selector.parse directive.selector = .ok selectors ∧
    ∃ selector ∈ selectors, selector.Describes name attributes

namespace Registry

theorem mem_dropRepeats_of_mem {indices : List Nat} {wanted : Nat} (member : wanted ∈ indices) :
    wanted ∈ dropRepeats indices := by
  induction indices with
  | nil => cases member
  | cons first rest induction =>
      have later : wanted ∈ rest → wanted ∈ dropRepeats rest := induction
      rw [dropRepeats]
      cases kept : dropRepeats rest with
      | nil =>
          rw [kept] at later
          rcases List.mem_cons.mp member with rfl | inside
          · exact List.mem_cons_self
          · cases later inside
      | cons next more =>
          rw [kept] at later
          simp only
          split
          next same =>
            rcases List.mem_cons.mp member with rfl | inside
            · rw [same]
              exact List.mem_cons_self
            · exact later inside
          next =>
            rcases List.mem_cons.mp member with rfl | inside
            · exact List.mem_cons_self
            · exact List.mem_cons_of_mem _ (later inside)

theorem mem_dropRepeats {indices : List Nat} {wanted : Nat} :
    wanted ∈ dropRepeats indices ↔ wanted ∈ indices :=
  ⟨mem_of_mem_dropRepeats, mem_dropRepeats_of_mem⟩

variable {registry : Registry}

theorem mem_matching {name : String} {attributes : Attributes} {place : Nat}
    {directive : Directive} :
    (place, directive) ∈ registry.matching name attributes ↔
      place ∈ registry.index.lookup (.ofElement name attributes) ∧
        registry.get? place = some directive := by
  rw [matching, List.mem_filterMap]
  constructor
  · rintro ⟨found, member, entry⟩
    obtain ⟨other, known, equal⟩ := Option.map_eq_some_iff.mp entry
    cases equal
    exact ⟨mem_dropRepeats.mp member, known⟩
  · rintro ⟨member, known⟩
    exact ⟨place, mem_dropRepeats.mpr member, by rw [known]; rfl⟩

/-- What is found on a node is what is registered and selects it. -/
theorem Built.mem_matchingNode (built : registry.Built) {kind : NodeKind} {place : Nat}
    {directive : Directive} :
    (place, directive) ∈ registry.matchingNode kind ↔
      registry.get? place = some directive ∧ directive.Selects kind := by
  obtain ⟨added, lists, _, complete⟩ := built.added
  have proper : ∀ pair ∈ added, pair.1.Proper := by
    rintro ⟨selector, _⟩ member
    obtain ⟨_, _, _, parsed, inside⟩ := (complete _ _).mp member
    exact Selector.proper_of_parse parsed selector inside
  cases kind with
  | element name attributes =>
      rw [matchingNode, mem_matching, lists.mem_lookup proper, and_comm]
      refine and_congr_right fun known => ⟨?_, ?_⟩
      · rintro ⟨selector, member, describes⟩
        obtain ⟨found, selectors, again, parsed, inside⟩ := (complete _ _).mp member
        rw [known] at again
        cases again
        exact ⟨name, attributes, selectors, rfl, parsed, selector, inside, describes⟩
      · rintro ⟨_, _, selectors, same, parsed, selector, inside, describes⟩
        cases same
        exact ⟨selector, (complete _ _).mpr ⟨directive, selectors, known, parsed, inside⟩,
          describes⟩
  | _ =>
      constructor
      · intro found
        cases found
      · rintro ⟨_, _, _, _, same, _⟩
        cases same

/-! Sequences of registrations. -/

/-- Try to register each directive, from the left. -/
def addingAll (registry : Registry) (directives : List Directive) : Registry :=
  directives.foldl adding registry

theorem Built.addingAll (built : registry.Built) (directives : List Directive) :
    (registry.addingAll directives).Built := by
  induction directives generalizing registry with
  | nil => exact built
  | cons directive rest induction => exact induction (built.adding directive)

theorem adding_of_not_isReadable {directive : Directive}
    (unreadable : directive.isReadable = false) : registry.adding directive = registry := by
  rw [Directive.isReadable] at unreadable
  split at unreadable
  · cases unreadable
  next failed => rw [adding, register, failed]

theorem directives_adding {directive : Directive} (readable : directive.isReadable = true) :
    (registry.adding directive).directives = registry.directives ++ [directive] := by
  rw [Directive.isReadable] at readable
  split at readable
  next parsed => rw [adding, register, parsed]
  · cases readable

theorem addingAll_filter (directives : List Directive) :
    registry.addingAll (directives.filter Directive.isReadable) =
      registry.addingAll directives := by
  induction directives generalizing registry with
  | nil => rfl
  | cons directive rest induction =>
      cases readable : directive.isReadable with
      | true =>
          rw [List.filter_cons_of_pos readable]
          exact induction
      | false =>
          rw [List.filter_cons_of_neg (Bool.eq_false_iff.mp readable), induction, addingAll,
            addingAll, List.foldl_cons, adding_of_not_isReadable readable]

theorem directives_addingAll (directives : List Directive) :
    (registry.addingAll directives).directives =
      registry.directives ++ directives.filter Directive.isReadable := by
  induction directives generalizing registry with
  | nil => exact (List.append_nil _).symm
  | cons directive rest induction =>
      rw [addingAll, List.foldl_cons]
      refine induction.trans ?_
      cases readable : directive.isReadable with
      | true =>
          rw [directives_adding readable, List.filter_cons_of_pos readable, List.append_assoc]
          rfl
      | false =>
          rw [adding_of_not_isReadable readable,
            List.filter_cons_of_neg (Bool.eq_false_iff.mp readable)]

/-- After any registrations, what is found on a node is each readable directive that selects it,
once, under its number among the readable ones and in that order; those that failed do not count. -/
theorem matchingNode_addingAll (directives : List Directive) (doc : Document) (node : NodeId) :
    let registry := Registry.empty.addingAll directives
    let readable := directives.filter Directive.isReadable
    registry = Registry.empty.addingAll readable ∧ registry.directives = readable ∧
      (∀ place directive, (place, directive) ∈ registry.matchingNode (doc.kind node) ↔
        readable[place]? = some directive ∧ directive.Selects (doc.kind node)) ∧
      ((registry.matchingNode (doc.kind node)).map Prod.fst).Pairwise (· < ·) := by
  have built : (Registry.empty.addingAll directives).Built := Built.empty.addingAll directives
  have registered : (Registry.empty.addingAll directives).directives =
      directives.filter Directive.isReadable :=
    directives_addingAll directives
  refine ⟨(addingAll_filter directives).symm, registered, fun place directive => ?_,
    built.ascending_matchingNode _⟩
  rw [built.mem_matchingNode, get?, registered]

end Registry

end ViewTemplates
