import ViewTemplates.Proofs.Document.Moves
import ViewTemplates.Proofs.Selector.Liveness

/-!
Which registered directives are ever reported: those with a live alternative. Reading a selector
refuses empty alternatives, but it does not look for a contradiction.
-/

namespace ViewTemplates.Registry

variable {registry next : Registry} {directive : Directive} {events : List Event}

theorem directives_of_register (registered : registry.register directive = .ok (next, events)) :
    next.directives = registry.directives ++ [directive] := by
  rw [register] at registered
  split at registered
  next => cases registered
  next =>
    cases registered
    rfl

theorem exists_register_of_parse {selectors : List Selector}
    (parsed : Selector.parse directive.selector = .ok selectors) :
    ∃ next events, registry.register directive = .ok (next, events) := by
  rw [register, parsed]
  exact ⟨_, _, rfl⟩

/-- A directive that was registered is reported on an element of some document exactly if some
alternative of its selector is live. -/
theorem Built.reported_iff_live (built : registry.Built)
    (registered : registry.register directive = .ok (next, events)) :
    (∃ doc : Document, doc.WellFormed ∧ ∃ node name attributes,
        doc.kind node = .element name attributes ∧ (attributes.map Prod.fst).Nodup ∧
          (registry.size, directive) ∈ next.matchingNode (doc.kind node)) ↔
      ∃ selectors, Selector.parse directive.selector = .ok selectors ∧
        ∃ selector ∈ selectors, selector.Live := by
  have selected {kind : NodeKind} :
      (registry.size, directive) ∈ next.matchingNode kind ↔ directive.Selects kind := by
    rw [(built.register registered).mem_matchingNode]
    refine and_iff_right ?_
    rw [get?, directives_of_register registered]
    exact List.getElem?_concat_length
  constructor
  · rintro ⟨doc, -, node, name, attributes, isElement, distinct, reported⟩
    rw [isElement, selected] at reported
    obtain ⟨_, _, selectors, same, parsed, selector, member, describes⟩ := reported
    cases same
    exact ⟨selectors, parsed, selector, member, .of_describes distinct describes⟩
  · rintro ⟨selectors, parsed, selector, member, live⟩
    obtain ⟨name, attributes, distinct, describes⟩ :=
      live.describes (Selector.spelled_of_parse parsed selector member)
    have isElement : (Document.empty.create (.element name attributes)).kind 0 =
        .element name attributes := rfl
    refine ⟨Document.empty.create (.element name attributes), Document.WellFormed.empty.create _,
      0, name, attributes, isElement, distinct, ?_⟩
    rw [isElement, selected]
    exact ⟨name, attributes, selectors, rfl, parsed, selector, member, describes⟩

def plainLinks : Directive := ⟨"Link", "a:not(.button)", .decorator⟩

theorem reported_plainLinks : ∃ next events,
    Registry.empty.register plainLinks = .ok (next, events) ∧
      ∃ doc : Document, doc.WellFormed ∧ ∃ node name attributes,
        doc.kind node = .element name attributes ∧ (attributes.map Prod.fst).Nodup ∧
          (0, plainLinks) ∈ next.matchingNode (doc.kind node) := by
  have parsed : Selector.parse plainLinks.selector =
      .ok [⟨⟨some "a", [], []⟩, [⟨none, ["button"], []⟩]⟩] := by decide +kernel
  obtain ⟨next, events, registered⟩ := exists_register_of_parse parsed
  refine ⟨next, events, registered, (Built.empty.reported_iff_live registered).mpr ?_⟩
  refine ⟨_, parsed, _, List.mem_singleton_self _, ?_, none, fun _ => nofun, nofun, ?_⟩
  · rintro _ _ _ ⟨asked, -⟩
    cases asked
  · intro group member entails
    cases List.mem_singleton.mp member
    rcases entails.classes "button" (List.mem_singleton_self _) with asked | ⟨_, _, pins, _⟩
    · cases asked
    · cases pins.1

def unreachable : Directive := ⟨"Never", ":not()", .decorator⟩

/-- A group without items holds everywhere, so what excludes it is found nowhere. -/
theorem registered_never_reported : ∃ next events,
    Registry.empty.register unreachable = .ok (next, events) ∧
      ∀ kind, next.matchingNode kind = [] := by
  have parsed : Selector.parse unreachable.selector = .ok [⟨⟨some "*", [], []⟩, [.empty]⟩] := by
    decide +kernel
  obtain ⟨next, events, registered⟩ := exists_register_of_parse parsed
  refine ⟨next, events, registered, fun kind => List.eq_nil_iff_forall_not_mem.mpr ?_⟩
  rintro ⟨place, directive⟩ reported
  obtain ⟨known, name, attributes, selectors, -, read, selector, member, -, excluded⟩ :=
    (Built.empty.register registered).mem_matchingNode.mp reported
  rw [get?, directives_of_register registered] at known
  cases List.mem_singleton.mp (List.mem_of_getElem? known)
  rw [parsed] at read
  cases read
  cases List.mem_singleton.mp member
  refine excluded .empty (List.mem_singleton_self _)
    ⟨?_, List.forall_mem_nil _, List.forall_mem_nil _⟩
  rintro wanted ⟨⟩

end ViewTemplates.Registry
