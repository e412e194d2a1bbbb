import ViewTemplates.Proofs.Compiler.Walks
import ViewTemplates.Proofs.Document.Graft

/-!
The numbers of elements. A compilation numbers the elements of the template in document order, but
for those that it does not visit: the ones below nodes that are no elements.
-/

namespace ViewTemplates

open Document

/-! The elements that are reached are those that are not below a node that is no element. -/

theorem filter_eq_of_sublist {row part : List α} {kept : α → Bool} (inside : part.Sublist row)
    (nodup : row.Nodup) (members : ∀ value ∈ row, kept value = true ↔ value ∈ part) :
    row.filter kept = part := by
  induction inside with
  | slnil => rfl
  | @cons part rest value inside induction =>
      obtain ⟨head, tail⟩ := List.forall_mem_cons.mp members
      obtain ⟨fresh, nodup⟩ := List.nodup_cons.mp nodup
      rw [List.filter_cons_of_neg fun kept => fresh (inside.subset (head.mp kept))]
      exact induction nodup tail
  | @cons_cons part rest value inside induction =>
      obtain ⟨head, tail⟩ := List.forall_mem_cons.mp members
      obtain ⟨fresh, nodup⟩ := List.nodup_cons.mp nodup
      rw [List.filter_cons_of_pos (head.mpr List.mem_cons_self), induction nodup]
      intro other member
      have different : other ≠ value := fun same => fresh (same ▸ member)
      rw [tail other member, List.mem_cons, or_iff_right different]

theorem Document.elementsOf_reached {source : Forest (NodeId × NodeKind)}
    (nodup : source.ids.Nodup) :
    (elementsOf source).filter (· ∉ source.unreached.map Prod.fst) =
      elementsOf source.reached := by
  apply filter_eq_of_sublist
  · exact ((Forest.preorder_pruned_sublist source).filter _).map Prod.fst
  · exact (List.filter_sublist.map Prod.fst).nodup nodup
  · intro node member
    rw [decide_eq_true_eq]
    constructor
    · intro visible
      obtain ⟨entry, element, rfl⟩ := List.mem_map.mp member
      obtain ⟨inside, isElement⟩ := List.mem_filter.mp element
      rcases Forest.mem_reached_or_unreached inside with reached | unreached
      · exact List.mem_map_of_mem (List.mem_filter.mpr ⟨reached, isElement⟩)
      · exact absurd (List.mem_map_of_mem unreached) visible
    · intro reached
      exact Forest.notMem_unreached nodup ((List.filter_sublist.map Prod.fst).subset reached)

/-- The elements in document order, but for those that lie below one of the nodes that is no
element. -/
def Document.reachedElements (doc : Document) (nodes : List NodeId) : List NodeId :=
  (doc.elementsInOrder nodes).filter (· ∉ (doc.forest nodes).unreached.map Prod.fst)

theorem Document.reachedElements_eq {doc : Document} (wellFormed : doc.WellFormed)
    {nodes : List NodeId} (used : ∀ node ∈ nodes, node < doc.size)
    (nodup : (doc.forest nodes).ids.Nodup) :
    doc.reachedElements nodes = elementsOf (doc.forest nodes).reached := by
  rw [reachedElements, wellFormed.elementsInOrder_eq used]
  exact elementsOf_reached nodup

theorem Document.reachedElements_of_bare {doc : Document} (wellFormed : doc.WellFormed)
    {nodes : List NodeId} (used : ∀ node ∈ nodes, node < doc.size)
    (nodup : (doc.forest nodes).ids.Nodup)
    (bare : ∀ entry ∈ (doc.forest nodes).unreached, entry.2.isElement = false) :
    doc.reachedElements nodes = doc.elementsInOrder nodes := by
  rw [reachedElements, wellFormed.elementsInOrder_eq used]
  apply List.filter_eq_self.mpr
  intro node member
  rw [decide_eq_true_eq]
  intro hidden
  obtain ⟨entry, element, rfl⟩ := List.mem_map.mp member
  obtain ⟨other, unreached, same⟩ := List.mem_map.mp hidden
  obtain ⟨inside, isElement⟩ := List.mem_filter.mp element
  have among := (Forest.perm_pruned (doc.forest nodes)).mem_iff.mpr
    (List.mem_append_right _ unreached)
  obtain rfl := List.inj_on_of_nodup_map nodup among inside same
  rw [bare other unreached] at isElement
  contradiction

/-! Binders of the elements of a layout. -/

namespace Setup.BindersFit

variable {setup : Setup} {layout : Forest (NodeId × Origin)}
  {binders : List (ElementBinder Factory)} (fits : setup.BindersFit (layout.map Prod.snd) binders)
include fits

theorem exists_place {binder : ElementBinder Factory} (member : binder ∈ binders) :
    ∃ index place, binder.elementIndex = some index ∧
      (layout.sitesOf Origin.isElementAt)[index]? = some place ∧
      setup.BinderFits (place.map Prod.snd) binder := by
  obtain ⟨indices, equal, -⟩ := fits.indexed
  have among : binder.elementIndex ∈ indices.map some := by
    rw [← equal]
    exact List.mem_map_of_mem member
  obtain ⟨index, -, same⟩ := List.mem_map.mp among
  obtain ⟨site, sited, fitting⟩ := fits.sound binder member index same.symm
  rw [Forest.sitesOf_map, List.getElem?_map, Option.map_eq_some_iff] at sited
  obtain ⟨place, found, rfl⟩ := sited
  exact ⟨index, place, same.symm, found, fitting⟩

theorem exists_binder {index : Nat} {place : Forest.Site (NodeId × Origin)}
    (found : (layout.sitesOf Origin.isElementAt)[index]? = some place)
    (decorated : setup.decorators (setup.kindOf place.value.2) ≠ []) :
    ∃ binder ∈ binders, binder.elementIndex = some index ∧
      binder.decorators = setup.decorators (setup.kindOf place.value.2) := by
  have sited : ((layout.map Prod.snd).sitesOf Origin.isElement)[index]? =
      some (place.map Prod.snd) := by
    rw [Forest.sitesOf_map, List.getElem?_map, found]
    rfl
  have bound : setup.IsBoundSite (place.map Prod.snd) :=
    .inl ((matchingNode_ne_nil_iff setup _).mpr (.inl decorated))
  obtain ⟨binder, member, indexed⟩ := (fits.complete index _ sited).mpr bound
  obtain ⟨site, again, fitting⟩ := fits.sound binder member index indexed
  obtain rfl := Option.some.inj (sited.symm.trans again)
  exact ⟨binder, member, indexed, fitting.decorators⟩

end Setup.BindersFit

namespace Compiler

variable {compiler : Compiler} {viewed : ComponentSource → Factory → Prop}

/-- How a compilation numbers the elements of a template, the layout telling where each node of the
template comes from. An element's number is its position in document order, but elements that the
compiler does not visit have none: those below nodes that are no elements. -/
structure Numbered (compiler : Compiler) (doc next : Document) (nodes : List NodeId)
    (compiled : Compiled) (layout : Forest (NodeId × Origin)) : Prop where
  template : layout.map (fun entry => (entry.1, compiler.setup.kindOf entry.2)) =
    (next.forest compiled.nodes).reached
  elements : next.reachedElements compiled.nodes =
    (layout.sitesOf Origin.isElementAt).map fun site => site.value.1
  agree : (∀ entry ∈ (doc.forest nodes).unreached, entry.2.isElement = false) →
    next.reachedElements compiled.nodes = next.elementsInOrder compiled.nodes
  binders : ∃ root rest, compiled.binders = root :: rest ∧
    compiler.setup.RootFits [] (layout.map Prod.snd).roots root ∧
    ∀ binder ∈ rest, ∃ index site, binder.elementIndex = some index ∧
      (next.reachedElements compiled.nodes)[index]? = some site.value.1 ∧
      (layout.sitesOf Origin.isElementAt)[index]? = some site ∧
      compiler.setup.BinderFits (site.map Prod.snd) binder
  listed : ∀ (index : Nat) (node : NodeId),
    (next.reachedElements compiled.nodes)[index]? = some node →
    compiler.setup.decorators (next.kind node) ≠ [] →
    ∃ binder ∈ compiled.binders, binder.elementIndex = some index ∧
      binder.decorators = compiler.setup.decorators (next.kind node)

theorem Walked.numbered {doc next : Document} {nodes : List NodeId} {compiled : Compiled}
    {marks : Forest (Mark Factory)} {anchorOf : NodeId → NodeId}
    (walked : compiler.Walked viewed doc next (doc.forest nodes) compiled.nodes marks anchorOf)
    (shows : Setup.Shows doc (doc.forest nodes)) (ascending : compiler.setup.Ascending)
    (views : ∀ source view, viewed source view → Setup.ViewFits source view)
    (binders : compiled.binders = Mark.binders [] marks) :
    compiler.Numbered doc next nodes compiled
      (compiler.setup.placed anchorOf (doc.forest nodes).reached) := by
  have wellFormed := walked.relaid.extracted.wellFormed
  have used := walked.relaid.used shows
  obtain ⟨holds, tops⟩ := walked.relaid.holds shows
  have rebuilt := wellFormed.forest_eq holds
  rw [tops] at rebuilt
  have nodup := walked.relaid.nodup shows
  rw [← rebuilt] at nodup
  have bare := compiler.setup.bare_origins (Forest.bare_reached (doc.forest nodes))
  have fits := Setup.bindersFit_of_aligned walked.aligned bare ascending views
  have aligned := walked.aligned
  rw [← Mark.binders_pruned, Mark.binders_eq] at binders
  rw [← Setup.map_snd_placed] at fits aligned
  have template : ((compiler.setup.placed anchorOf (doc.forest nodes).reached).map fun entry =>
      (entry.1, compiler.setup.kindOf entry.2)) = (next.forest compiled.nodes).reached := by
    rw [rebuilt, Setup.reached_rebuilt]
  generalize compiler.setup.placed anchorOf (doc.forest nodes).reached = layout at *
  have elements : next.reachedElements compiled.nodes =
      (layout.sitesOf Origin.isElementAt).map fun site => site.value.1 := by
    rw [reachedElements_eq wellFormed used nodup, ← template]
    exact elementsOf_of_sameNode (compiler.setup.sameNode_kindOf layout)
  constructor
  case template => exact template
  case elements => exact elements
  case agree =>
    intro bareSource
    apply reachedElements_of_bare wellFormed used nodup
    intro entry member
    rw [rebuilt] at member
    exact bareSource entry ((Setup.unreached_rebuilt_sublist _).subset member)
  case binders =>
    refine ⟨_, _, binders, ⟨rfl, rfl, rfl, rfl, Setup.slotsFit_of_aligned aligned.roots⟩, ?_⟩
    intro binder member
    obtain ⟨index, place, indexed, found, fitting⟩ := fits.exists_place member
    refine ⟨index, place, indexed, ?_, found, fitting⟩
    rw [elements, List.getElem?_map, found]
    rfl
  case listed =>
    intro index node found decorated
    rw [elements, List.getElem?_map, Option.map_eq_some_iff] at found
    obtain ⟨place, found, rfl⟩ := found
    have inside : place.value ∈ layout.preorder := by
      have among := List.mem_map_of_mem (f := Forest.Site.value) (List.mem_of_getElem? found)
      rw [Forest.map_value_sitesOf] at among
      exact (List.mem_filter.mp among).1
    have kind : next.kind place.value.1 = compiler.setup.kindOf place.value.2 := by
      have holds := (wellFormed.holds_forest compiled.nodes).1
      have stands : (place.value.1, compiler.setup.kindOf place.value.2) ∈
          (next.forest compiled.nodes).reached.preorder := by
        rw [← template, Forest.preorder_map]
        exact List.mem_map_of_mem inside
      exact holds.kind_of_mem ((Forest.preorder_pruned_sublist _).subset stands)
    rw [kind] at decorated ⊢
    obtain ⟨binder, member, result⟩ := fits.exists_binder found decorated
    rw [binders]
    exact ⟨binder, List.mem_cons_of_mem _ member, result⟩

/-- The binders of a compilation are numbered by the elements that it visits, which are all but
those below nodes that are no elements. -/
theorem compile_numbered {registry : Registry} {config : Config} (built : registry.Built)
    (reached : compiler.Reached registry config) {doc : Document} {nodes : List NodeId}
    (wellFormed : doc.WellFormed) (used : ∀ node ∈ nodes, node < doc.size)
    (apart : doc.Apart nodes) {compiled : Compiled}
    (success : (compiler.compile doc nodes).1.outcome = .ok compiled) :
    ∃ anchorOf, compiler.Numbered doc (compiler.compile doc nodes).2 nodes compiled
      (compiler.setup.placed anchorOf (doc.forest nodes).reached) := by
  have ascending := reached.ascending built
  have kept : compiler.setup.Keeps compiler.start := reached.keeps built
  have shows := Setup.shows_of_apart wellFormed used apart
  obtain ⟨marks, site, walk, last, binders⟩ := compile_eq_ok success
  rw [← (wellFormed.holds_forest nodes).2] at walk
  obtain ⟨anchorOf, walked⟩ := walked_of_compileEach (viewsSound ascending) shows kept walk
  rw [last]
  exact ⟨anchorOf, walked.numbered shows ascending (fun _ _ viewed => viewed.viewFits) binders⟩

/-! A marked span in a fragment, and behind it a paragraph with an interpolated text. -/

def marking : Registry := Registry.empty.adding ⟨"Mark", "[mark]", .decorator⟩

theorem built_marking : marking.Built := Registry.Built.empty.adding _

def veiledSpan : Forest NodeKind :=
  .tree (.element "div" [])
    (.cons .fragment (.leaf (.element "span" [("mark", "")]))
      (.tree (.element "p" []) (.leaf (.text "\x7b\x7bname\x7d\x7d"))))

theorem bare_veiledSpan : veiledSpan.Bare NodeKind.isContainer := by
  simp [veiledSpan, Forest.Bare, NodeKind.isContainer]

def veiledDocument : Document := (Document.empty.graft none veiledSpan).2

theorem wellFormed_veiledDocument : veiledDocument.WellFormed :=
  WellFormed.empty.graft veiledSpan bare_veiledSpan

theorem used_veiledDocument : ∀ node ∈ [0], node < veiledDocument.size := by
  have size : veiledDocument.size = 5 := by decide
  simp [size]

/-- The binder of the paragraph is the only one but the root. -/
def numberedOne : Compiled :=
  ⟨[0], [⟨0, none, [], .decorated, []⟩, ⟨2, some 1, [], .decorated, [⟨0, .text⟩]⟩]⟩

theorem compiled_veiledDocument :
    ((Compiler.new marking).compile veiledDocument [0]).1.outcome = .ok numberedOne := by
  have withoutViews : ((Compiler.new marking).compile veiledDocument [0]).1.outcome.toOption.map
      (fun compiled => (compiled.nodes, compiled.binders.map (·.map fun _ => ()))) =
        some ([0], [⟨0, none, [], .decorated, []⟩, ⟨2, some 1, [], .decorated, [⟨0, .text⟩]⟩]) := by
    decide +kernel
  cases success : ((Compiler.new marking).compile veiledDocument [0]).1.outcome with
  | error error =>
      rw [success] at withoutViews
      cases withoutViews
  | ok compiled =>
      -- The binders have no views, so they are known though their views are forgotten.
      obtain ⟨nodes, binders⟩ := compiled
      simp only [success, Except.toOption, Option.map_some, Option.some.injEq, Prod.mk.injEq,
        List.map_eq_cons_iff, List.map_eq_nil_iff, ElementBinder.map, ElementBinder.mk.injEq,
        Role.map_eq_decorated, Slot.map, Slot.mk.injEq, SlotKind.map_eq_text] at withoutViews
      obtain ⟨rfl, ⟨_, _, _, _, _⟩, rest, rfl, ⟨rfl, rfl, rfl, rfl, rfl⟩, paragraph⟩ := withoutViews
      obtain ⟨⟨_, _, _, _, _⟩, rest, rfl, ⟨rfl, rfl, rfl, rfl, slots⟩, rfl⟩ := paragraph
      obtain ⟨⟨_, _⟩, rest, rfl, ⟨rfl, rfl⟩, rfl⟩ := slots
      rfl

theorem compile_numbered_veiledDocument :
    (∀ node ∈ [0], node < veiledDocument.size) ∧ veiledDocument.Apart [0] ∧
      ((Compiler.new marking).compile veiledDocument [0]).1.outcome = .ok numberedOne ∧
      ∃ anchorOf, (Compiler.new marking).Numbered veiledDocument
        ((Compiler.new marking).compile veiledDocument [0]).2 [0] numberedOne
        ((Compiler.new marking).setup.placed anchorOf (veiledDocument.forest [0]).reached) :=
  ⟨used_veiledDocument, List.pairwise_singleton _ _, compiled_veiledDocument,
    compile_numbered built_marking (reached_new _) wellFormed_veiledDocument used_veiledDocument
      (List.pairwise_singleton _ _) compiled_veiledDocument⟩

/-- The binder of the paragraph has the number of the span before it, and the span has none though
a decorator matches it. -/
theorem misnumbered :
    veiledDocument.WellFormed ∧ veiledDocument.Apart [0] ∧
      ((Compiler.new marking).compile veiledDocument [0]).1.outcome = .ok numberedOne ∧
      ((Compiler.new marking).compile veiledDocument [0]).2.elementsInOrder [0] = [0, 2, 3] ∧
      veiledDocument.children 2 = [] ∧
      (Compiler.new marking).setup.decorators (veiledDocument.kind 2) = [⟨0, "Mark"⟩] ∧
      ∀ binder ∈ numberedOne.binders, binder.decorators = [] :=
  ⟨wellFormed_veiledDocument, List.pairwise_singleton _ _, compiled_veiledDocument,
    by decide +kernel, by decide, by decide +kernel, by simp [numberedOne]⟩

end Compiler

end ViewTemplates
