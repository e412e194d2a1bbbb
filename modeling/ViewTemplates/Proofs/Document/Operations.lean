import ViewTemplates.Proofs.Document.Graft
import ViewTemplates.Proofs.Markup.Nesting
import ViewTemplates.View

/-!
The remaining operations on documents keep them well formed: changed attributes and texts, replaced
children, copies, imports, parsed markup and the nodes of views.
-/

namespace ViewTemplates.Document

variable {doc next : Document}

/-! Changed kinds. -/

theorem WellFormed.setKind (wellFormed : doc.WellFormed) {node : NodeId} {kind : NodeKind}
    (same : kind.isContainer = (doc.kind node).isContainer) :
    (doc.setKind node kind).WellFormed where
  parent_iff := by
    intro child parent
    rw [parent?_setKind, children_setKind]
    exact wellFormed.parent_iff child parent
  nodup := by
    intro other
    rw [children_setKind]
    exact wellFormed.nodup other
  leaf := by
    intro other leaf
    rw [children_setKind]
    apply wellFormed.leaf other
    rw [kind_setKind] at leaf
    split at leaf
    next changed => rw [← changed.1, ← same, leaf]
    next => exact leaf
  acyclic := by
    apply wellFormed.acyclic_of_childOf
    intro child parent attached
    rwa [ChildOf, parent?_setKind] at attached

theorem WellFormed.setAttribute (wellFormed : doc.WellFormed) (node : NodeId)
    (name value : String) : (doc.setAttribute node name value).WellFormed := by
  unfold Document.setAttribute
  split
  next kind => exact wellFormed.setKind (by rw [kind]; rfl)
  next => exact wellFormed

theorem WellFormed.removeAttribute (wellFormed : doc.WellFormed) (node : NodeId)
    (name : String) : (doc.removeAttribute node name).WellFormed := by
  unfold Document.removeAttribute
  split
  next kind => exact wellFormed.setKind (by rw [kind]; rfl)
  next => exact wellFormed

theorem WellFormed.setText (wellFormed : doc.WellFormed) (node : NodeId) (value : String) :
    (doc.setText node value).WellFormed := by
  unfold Document.setText
  split
  next kind => exact wellFormed.setKind (by rw [kind]; rfl)
  next kind => exact wellFormed.setKind (by rw [kind]; rfl)
  next => exact wellFormed

/-! Insertions. -/

section insertion
variable {parent node : NodeId}

theorem size_insertBefore {reference : Option NodeId}
    (inserted : doc.insertBefore parent node reference = .ok next) : next.size = doc.size := by
  rw [Document.insertBefore] at inserted
  split at inserted
  · cases inserted
  split at inserted
  · cases inserted
  split at inserted
  · cases inserted
    rfl
  split at inserted
  · cases inserted
  · cases inserted
    rw [size_setParent, size_setChildren, size_remove]

variable {old : NodeId}

theorem size_replaceChild (replaced : doc.replaceChild parent node old = .ok next) :
    next.size = doc.size := by
  rw [Document.replaceChild] at replaced
  split at replaced
  · cases replaced
  next inserted =>
    cases replaced
    rw [size_remove, size_insertBefore inserted]

theorem WellFormed.replaceChild (wellFormed : doc.WellFormed) (used : node < doc.size)
    (parentUsed : parent < doc.size) (replaced : doc.replaceChild parent node old = .ok next) :
    next.WellFormed := by
  rw [Document.replaceChild] at replaced
  split at replaced
  · cases replaced
  next inserted =>
    cases replaced
    exact (wellFormed.insertBefore used parentUsed inserted).remove old

end insertion

/-! Copies. -/

theorem Holds.bare_of_leaf {forest : Forest (NodeId × NodeKind)} (holds : doc.Holds forest)
    (leaf : ∀ node, (doc.kind node).isContainer = false → doc.children node = []) :
    (forest.map Prod.snd).Bare NodeKind.isContainer := by
  induction forest with
  | nil => trivial
  | cons entry below rest inner outer =>
      obtain ⟨kind, children, belowHolds, restHolds⟩ := holds
      refine ⟨fun bottom => ?_, inner belowHolds, outer restHolds⟩
      rw [← kind] at bottom
      rw [leaf _ bottom] at children
      cases below with
      | nil => rfl
      | cons => cases children

theorem WellFormed.bare_kinds (wellFormed : doc.WellFormed) (nodes : List NodeId) :
    (doc.kinds nodes).Bare NodeKind.isContainer :=
  (wellFormed.holds_forest nodes).1.bare_of_leaf wellFormed.leaf

theorem WellFormed.importNode (wellFormed : doc.WellFormed) {source : Document}
    (sourceWellFormed : source.WellFormed) (node : NodeId) :
    (doc.importNode source node).2.WellFormed :=
  wellFormed.graft _ (sourceWellFormed.bare_kinds [node])

theorem WellFormed.cloneNode (wellFormed : doc.WellFormed) (node : NodeId) :
    (doc.cloneNode node).2.WellFormed :=
  wellFormed.graft _ (wellFormed.bare_kinds [node])

theorem setParent_none_create (kind : NodeKind) :
    (doc.create kind).setParent doc.size none = doc.create kind := by
  have created := setParent_create doc.records.toList kind none
  rw [Document.create, List.push_toArray] at created ⊢
  exact created

/-- A forest below a new fragment is grafted as one tree. -/
theorem adopt_eq (forest : Forest NodeKind) :
    (doc.adopt forest).2 = (doc.graft none (.tree .fragment forest)).2 := by
  rw [Document.graft, setParent_none_create, Document.adopt]
  rfl

theorem WellFormed.adopt (wellFormed : doc.WellFormed) {forest : Forest NodeKind}
    (bare : forest.Bare NodeKind.isContainer) : (doc.adopt forest).2.WellFormed := by
  rw [adopt_eq]
  apply wellFormed.graft
  exact ⟨nofun, bare, trivial⟩

theorem WellFormed.parse (wellFormed : doc.WellFormed) {source : String} {nodes : List NodeId}
    {events : List Event} (parsed : doc.parse source = .ok (nodes, next, events)) :
    next.WellFormed := by
  rw [Document.parse] at parsed
  split at parsed
  · cases parsed
  next forest found read =>
    cases parsed
    exact wellFormed.adopt
      ((Markup.bare_of_parse read).mono NodeKind.isElement_of_not_isContainer)

theorem WellFormed.createView (wellFormed : doc.WellFormed) {factory : Factory}
    (bare : factory.template.Bare NodeKind.isContainer) (id : ViewId) :
    (factory.createView id doc).2.WellFormed :=
  wellFormed.graft _ bare

end ViewTemplates.Document
