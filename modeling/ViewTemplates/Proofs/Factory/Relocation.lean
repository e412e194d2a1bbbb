import ViewTemplates.Factory.Describe
import ViewTemplates.Proofs.Compiler.InPlace
import ViewTemplates.Proofs.Document.Graft
import ViewTemplates.View

/-!
Bound nodes found again by position. Nodes that have the shape of a compiled template are laid out
as the template is, so a binder's numbers lead to the images of the nodes that the compiler bound.
-/

namespace ViewTemplates

namespace Setup

variable (setup : Setup)

/-- A factory in another one: through a template directive, or through a component whose markup was
compiled. -/
inductive Within : Factory → Factory → Prop where
  | self {factory : Factory} : Within factory factory
  | anchor {factory inner : Factory} {binder : ElementBinder Factory} {slot : Slot Factory}
      {binding : Binding Factory} :
      binder ∈ factory.binders → slot ∈ binder.slots → slot.kind = .anchor binding →
      Within binding.view inner → Within factory inner
  | template {factory inner : Factory} {binder : ElementBinder Factory}
      {binding : Binding Factory} :
      binder ∈ factory.binders → binder.role = .template binding →
      Within binding.view inner → Within factory inner
  | component {factory inner : Factory} {binder : ElementBinder Factory}
      {binding : Binding Factory} {directive : Directive} {markup : String} :
      binder ∈ factory.binders → binder.role = .component binding →
      setup.registry.get? binding.directive.index = some directive →
      directive.kind = .component (.inline markup) →
      Within binding.view inner → Within factory inner

/-- A binder belongs to the top level, or to the element that its index says. -/
inductive Binds (decorators : List DirectiveRef) (origins : Forest Origin)
    (binder : ElementBinder Factory) : Prop where
  | root : setup.RootFits decorators origins.roots binder → Binds decorators origins binder
  | element {index : Nat} {site : Forest.Site Origin} :
      binder.elementIndex = some index →
      (origins.sitesOf Origin.isElement)[index]? = some site → setup.BinderFits site binder →
      Binds decorators origins binder

variable {setup} {decorators : List DirectiveRef} {source : Forest NodeKind} {factory : Factory}

theorem Compiles.template_eq (compiles : setup.Compiles decorators source factory) :
    factory.template = (setup.origins source).map setup.kindOf := by
  cases compiles
  rfl

theorem Compiles.bare (compiles : setup.Compiles decorators source factory) :
    factory.template.Bare NodeKind.isElement := by
  rw [compiles.template_eq, Forest.bare_map]
  cases compiles with
  | intro bare =>
      simp only [setup.isElement_kindOf]
      exact setup.bare_origins bare

theorem Compiles.binds (compiles : setup.Compiles decorators source factory) :
    ∀ binder ∈ factory.binders, setup.Binds decorators (setup.origins source) binder := by
  cases compiles with
  | @intro _ _ root binders _ rootFits bindersFit _ =>
      intro binder member
      rcases List.mem_cons.mp member with rfl | member
      · exact .root rootFits
      · obtain ⟨indices, equal, _⟩ := bindersFit.indexed
        have mapped := List.mem_map_of_mem (f := (·.elementIndex)) member
        rw [equal] at mapped
        obtain ⟨index, _, indexed⟩ := List.mem_map.mp mapped
        obtain ⟨site, found, fits⟩ := bindersFit.sound binder member index indexed.symm
        exact .element indexed.symm found fits

theorem Compiles.nested (compiles : setup.Compiles decorators source factory)
    {inner : List DirectiveRef} {content : Forest NodeKind} {view : Factory}
    (nests : setup.Nests (setup.origins source) factory.binders inner content view) :
    setup.Compiles inner content view := by
  cases compiles with
  | intro _ _ _ nested => exact nested inner content view nests

theorem Binds.row {origins : Forest Origin} {binder : ElementBinder Factory}
    (binds : setup.Binds decorators origins binder) :
    ∃ row, origins.rowAt Origin.isElement binder.elementIndex = some row ∧
      setup.SlotsFit row binder.slots := by
  cases binds with
  | root fits => exact ⟨origins.roots, by rw [fits.elementIndex]; rfl, fits.slots⟩
  | element indexed found fits =>
      exact ⟨_, by rw [indexed, Forest.rowAt, found]; rfl, fits.slots⟩

theorem Binds.value {origins : Forest Origin} {binder : ElementBinder Factory}
    (binds : setup.Binds decorators origins binder) :
    binder.role = .decorated ∨
      ∃ origin, origins.valueAt Origin.isElement binder.elementIndex = some origin ∧
        setup.RoleFits origin binder.role := by
  cases binds with
  | root fits => exact .inl fits.role
  | element indexed found fits =>
      exact .inr ⟨_, by rw [indexed, Forest.valueAt, found]; rfl, fits.role⟩

/-- Every factory in a compiled one was compiled from a source of the same sort, if what a source
nests is always of that sort. -/
theorem Within.compiles_keeping {keeps : Forest NodeKind → Prop}
    (passes : ∀ {source : Forest NodeKind} {binders : List (ElementBinder Factory)}
      {inner : List DirectiveRef} {content : Forest NodeKind} {view : Factory},
      keeps source → setup.Nests (setup.origins source) binders inner content view →
        keeps content)
    {inner : Factory} (within : setup.Within factory inner)
    (compiles : setup.Compiles decorators source factory) (kept : keeps source) :
    ∃ decorators source, keeps source ∧ setup.Compiles decorators source inner := by
  induction within generalizing decorators source with
  | self => exact ⟨decorators, source, kept, compiles⟩
  | anchor member slotMember anchored _ induction =>
      obtain ⟨row, found, slotsFit⟩ := (compiles.binds _ member).row
      obtain ⟨origin, placed, fits⟩ := slotsFit.sound _ slotMember
      rw [anchored] at fits
      cases fits with
      | anchor =>
          have nests : setup.Nests (setup.origins source) _ _ _ _ :=
            .anchor member found slotMember placed anchored
          exact induction (compiles.nested nests) (passes kept nests)
  | template member role _ induction =>
      rcases (compiles.binds _ member).value with decorated | ⟨origin, found, fits⟩
      · rw [role] at decorated
        cases decorated
      · rw [role] at fits
        cases fits with
        | template =>
            have nests : setup.Nests (setup.origins source) _ _ _ _ :=
              .template member found role
            exact induction (compiles.nested nests) (passes kept nests)
  | component member role registered inline _ induction =>
      rcases (compiles.binds _ member).value with decorated | ⟨origin, found, fits⟩
      · rw [role] at decorated
        cases decorated
      · rw [role] at fits
        cases fits with
        | component claimed viewed =>
            obtain ⟨directive, again, component⟩ :=
              registered_of_mem_claims (claimed ▸ List.mem_singleton_self _)
            rw [registered] at again
            cases again
            rw [inline] at component
            cases component
            obtain ⟨forest, events, parsed⟩ := viewed
            have nests : setup.Nests (setup.origins source) _ _ _ _ :=
              .component member found claimed role parsed
            exact induction (compiles.nested nests) (passes kept nests)

/-- Every factory in a compiled one was compiled from some source. -/
theorem Within.compiles {inner : Factory} (within : setup.Within factory inner)
    (compiles : setup.Compiles decorators source factory) :
    ∃ decorators source, setup.Compiles decorators source inner := by
  have always : ∃ decorators source, True ∧ setup.Compiles decorators source inner :=
    within.compiles_keeping (fun _ _ => trivial) compiles trivial
  obtain ⟨decorators, source, -, compiles⟩ := always
  exact ⟨decorators, source, compiles⟩

end Setup

/-! Binders in a layout. -/

namespace Setup

variable (setup : Setup)

/-- The node is the image of the text or the anchor that the slot is for. -/
def SlotLocated (row : List (NodeId × Origin)) (slot : Slot Factory) (node : NodeId) : Prop :=
  ∃ origin, row[slot.position]? = some (node, origin) ∧ setup.SlotFits origin slot.kind

/-- Template roles, and no others, come with the anchor that was put into the emptied element. -/
inductive AnchorLocated (row : List (NodeId × Origin)) : Role Factory → Option NodeId → Prop where
  | template {binding : Binding Factory} {node : NodeId} :
      row = [(node, .inside)] → AnchorLocated row (.template binding) (some node)
  | component {binding : Binding Factory} : AnchorLocated row (.component binding) none
  | decorated : AnchorLocated row .decorated none

/-- A binder and what was found for it: the images of the nodes that it is about. -/
inductive Located (decorators : List DirectiveRef) (layout : Forest (NodeId × Origin))
    (binder : ElementBinder Factory) (live : LiveBinder) : Prop where
  | root :
      setup.RootFits decorators (layout.roots.map Prod.snd) binder → live.element = none →
      List.Forall₂ (setup.SlotLocated layout.roots) binder.slots live.slots →
      live.anchor = none → Located decorators layout binder live
  | element {index : Nat} {site : Forest.Site (NodeId × Origin)} :
      binder.elementIndex = some index →
      (layout.sitesOf Origin.isElementAt)[index]? = some site →
      setup.BinderFits (site.map Prod.snd) binder → live.element = some site.value.1 →
      List.Forall₂ (setup.SlotLocated site.row) binder.slots live.slots →
      AnchorLocated site.row binder.role live.anchor → Located decorators layout binder live

variable {setup}

theorem row_of_emptied {source : Forest NodeKind} {level : Nat} {site : Forest.Site Origin}
    (member : site ∈ (setup.origins source).sites level) {kind : NodeKind}
    {content : Forest NodeKind} (emptied : site.value = .emptied kind content) :
    site.row = [.inside] := by
  induction source generalizing level with
  | nil => cases member
  | cons first below rest inner outer =>
      rw [origins_cons, Forest.sites_append, List.mem_append] at member
      rcases member with inTree | beside
      · rw [origins_tree] at inTree
        split at inTree
        · rcases List.mem_cons.mp inTree with rfl | inside
          · cases emptied
          · rw [Forest.sites, List.append_nil] at inside
            exact inner inside
        · split at inTree
          · cases List.mem_singleton.mp inTree
            cases emptied
          · rcases List.mem_cons.mp inTree with rfl | inside
            · rfl
            · cases List.mem_singleton.mp inside
              cases emptied
      · exact outer beside

theorem forall₂_filterMap {related : α → β → Prop} {f : α → Option β} {values : List α}
    (found : ∀ value ∈ values, ∃ result, f value = some result ∧ related value result) :
    List.Forall₂ related values (values.filterMap f) := by
  induction values with
  | nil => exact .nil
  | cons value rest induction =>
      obtain ⟨result, equal, holds⟩ := found value List.mem_cons_self
      rw [List.filterMap_cons_some equal]
      exact .cons holds (induction fun other member => found other (List.mem_cons_of_mem _ member))

/-- No slot is skipped. -/
theorem slotLocated_of_slotsFit {row : List (NodeId × Origin)} {slots : List (Slot Factory)}
    (fits : setup.SlotsFit (row.map Prod.snd) slots) :
    List.Forall₂ (setup.SlotLocated row) slots
      (slots.filterMap fun slot => (row.map Prod.fst)[slot.position]?) := by
  refine forall₂_filterMap fun slot member => ?_
  obtain ⟨origin, found, slotFits⟩ := fits.sound slot member
  rw [List.getElem?_map, Option.map_eq_some_iff] at found
  obtain ⟨⟨node, _⟩, placed, rfl⟩ := found
  refine ⟨node, ?_, _, placed, slotFits⟩
  rw [List.getElem?_map, placed]
  rfl

section laid
variable {doc : Document} {nodes : List NodeId} {layout : Forest (NodeId × Origin)}
  (laid : doc.Laid nodes layout) {decorators : List DirectiveRef} {binder : ElementBinder Factory}
  (number : Nat)
include laid

theorem located_root (fits : setup.RootFits decorators (layout.roots.map Prod.snd) binder) :
    setup.Located decorators layout binder
      (Factory.instantiateBinder doc nodes (doc.elementsInOrder nodes) number binder) := by
  have nowhere : Factory.locate (doc.elementsInOrder nodes) binder = none := by
    rw [Factory.locate, fits.elementIndex]
    rfl
  have siblings : Factory.siblings doc nodes (doc.elementsInOrder nodes) binder =
      layout.roots.map Prod.fst := by
    rw [Factory.siblings, fits.elementIndex]
    exact laid.tops.symm
  refine .root fits nowhere ?_ ?_
  · rw [Factory.instantiateBinder, siblings]
    exact slotLocated_of_slotsFit fits.slots
  · rw [Factory.instantiateBinder, fits.role]

theorem located_element {source : Forest NodeKind}
    (origins : layout.map Prod.snd = setup.origins source) {index : Nat}
    {site : Forest.Site (NodeId × Origin)} (indexed : binder.elementIndex = some index)
    (found : (layout.sitesOf Origin.isElementAt)[index]? = some site)
    (fits : setup.BinderFits (site.map Prod.snd) binder) :
    setup.Located decorators layout binder
      (Factory.instantiateBinder doc nodes (doc.elementsInOrder nodes) number binder) := by
  have member : site ∈ layout.sites 1 := List.mem_of_mem_filter (List.mem_of_getElem? found)
  have located : Factory.locate (doc.elementsInOrder nodes) binder = some site.value.1 := by
    rw [Factory.locate, indexed, laid.elements, Option.bind_some, List.getElem?_map, found]
    rfl
  have siblings : Factory.siblings doc nodes (doc.elementsInOrder nodes) binder =
      site.row.map Prod.fst := by
    rw [Factory.siblings, indexed]
    simp only [located]
    exact laid.children site member
  refine .element indexed found fits located ?_ ?_
  · rw [Factory.instantiateBinder, siblings]
    exact slotLocated_of_slotsFit fits.slots
  · rw [Factory.instantiateBinder, located]
    have emptied {kind : NodeKind} {content : Forest NodeKind}
        (value : site.value.2 = .emptied kind content) :
        ∃ node, site.row = [(node, .inside)] ∧ doc.child? site.value.1 0 = some node := by
      have inside : site.map Prod.snd ∈ (setup.origins source).sites 1 := by
        rw [← origins, Forest.sites_map]
        exact List.mem_map_of_mem member
      have sole : site.row.map Prod.snd = [.inside] := row_of_emptied inside value
      obtain ⟨⟨node, origin⟩, row, rfl⟩ := List.map_eq_singleton_iff.mp sole
      exact ⟨node, row, by rw [Document.child?, laid.children site member, row]; rfl⟩
    -- The role tells what the element is, and so whether there is an anchor below it.
    have roleFits : setup.RoleFits site.value.2 binder.role := fits.role
    generalize value : site.value.2 = origin at roleFits
    generalize binder.role = role at roleFits ⊢
    cases roleFits with
    | decorated => exact .decorated
    | component => exact .component
    | template =>
        obtain ⟨node, row, child⟩ := emptied value
        simp only [Option.bind_some, child]
        exact .template row

end laid

section views
variable (setup) (decorators : List DirectiveRef) (source : Forest NodeKind) (factory : Factory)

/-- The nodes are laid out as the template of the source, and the view has what each binder is
about, in the order of the binders. -/
def Relocates (doc : Document) (nodes : List NodeId) (view : View) : Prop :=
  ∃ layout : Forest (NodeId × Origin),
    layout.map Prod.snd = setup.origins source ∧
    doc.Laid nodes layout ∧
    view.nodes = nodes ∧
    view.binders.map (·.binder) = List.range factory.binders.length ∧
    List.Forall₂ (setup.Located decorators layout) factory.binders view.binders

/-- The document was extended by the nodes of the view, which are copies of the template. -/
structure Creates (doc : Document) (view : View) (next : Document) : Prop where
  wellFormed : next.WellFormed
  kept : ∀ node < doc.size, next.records[node]? = doc.records[node]?
  fresh : (next.forest view.nodes).ids = List.range' doc.size (next.size - doc.size)
  parentless : ∀ node ∈ view.nodes, next.parent? node = none
  kinds : next.kinds view.nodes = factory.template
  html : next.html view.nodes = factory.html
  relocates : setup.Relocates decorators source factory next view.nodes view

end views

theorem located_of_laid {decorators : List DirectiveRef} {source : Forest NodeKind}
    {factory : Factory} (compiles : setup.Compiles decorators source factory) {doc : Document}
    {nodes : List NodeId} {layout : Forest (NodeId × Origin)}
    (origins : layout.map Prod.snd = setup.origins source) (laid : doc.Laid nodes layout)
    (number : Nat) : ∀ binder ∈ factory.binders, setup.Located decorators layout binder
      (Factory.instantiateBinder doc nodes (doc.elementsInOrder nodes) number binder) := by
  intro binder member
  cases compiles.binds binder member with
  | root fits =>
      rw [← origins, Forest.roots_map] at fits
      exact located_root laid number fits
  | element indexed found fits =>
      rw [← origins, Forest.sitesOf_map, List.getElem?_map, Option.map_eq_some_iff] at found
      obtain ⟨site, found, rfl⟩ := found
      exact located_element laid number origins indexed found fits

theorem forall₂_zipIdx {related : α → α × Nat → Prop} {values : List α}
    (each : ∀ value ∈ values, ∀ index, related value (value, index)) (first : Nat) :
    List.Forall₂ related values (values.zipIdx first) := by
  induction values generalizing first with
  | nil => exact .nil
  | cons value rest induction =>
      exact .cons (each value List.mem_cons_self first)
        (induction (fun other member => each other (List.mem_cons_of_mem _ member)) _)

theorem relocates_of_laid {decorators : List DirectiveRef} {source : Forest NodeKind}
    {factory : Factory} (compiles : setup.Compiles decorators source factory) {doc : Document}
    {nodes : List NodeId} {layout : Forest (NodeId × Origin)}
    (origins : layout.map Prod.snd = setup.origins source) (laid : doc.Laid nodes layout)
    (id : ViewId) :
    setup.Relocates decorators source factory doc nodes (factory.instantiate id doc nodes) := by
  refine ⟨layout, origins, laid, rfl, ?_, ?_⟩
  · rw [Factory.instantiate, List.map_map, List.range_eq_range', ← List.zipIdx_map_snd 0]
    rfl
  · rw [Factory.instantiate, List.forall₂_map_right_iff]
    exact forall₂_zipIdx (fun binder member number =>
      located_of_laid compiles origins laid number binder member) 0

theorem Compiles.laid {decorators : List DirectiveRef} {source : Forest NodeKind}
    {factory : Factory} (compiles : setup.Compiles decorators source factory) {doc : Document}
    (wellFormed : doc.WellFormed) {nodes : List NodeId} (used : ∀ node ∈ nodes, node < doc.size)
    (shape : (doc.kinds nodes).map NodeKind.isElement = factory.template.map NodeKind.isElement) :
    ∃ layout : Forest (NodeId × Origin), layout.map Prod.snd = setup.origins source ∧
      doc.Laid nodes layout := by
  obtain ⟨holds, tops⟩ := wellFormed.holds_forest nodes
  have elements : NodeKind.isElement ∘ setup.kindOf = Origin.isElement :=
    funext setup.isElement_kindOf
  rw [compiles.template_eq, Document.kinds, Forest.map_map, Forest.map_map, elements] at shape
  -- The layout pairs each node with the origin at the same place of the template.
  obtain ⟨layout, origins, aligned⟩ := Forest.exists_zip shape
  rw [← tops] at used
  have laid := wellFormed.laid holds used aligned
  rw [tops] at laid
  exact ⟨layout, origins, laid⟩

theorem Compiles.relocates {decorators : List DirectiveRef} {source : Forest NodeKind}
    {factory : Factory} (compiles : setup.Compiles decorators source factory) {doc : Document}
    (wellFormed : doc.WellFormed) {nodes : List NodeId} (used : ∀ node ∈ nodes, node < doc.size)
    (shape : (doc.kinds nodes).map NodeKind.isElement = factory.template.map NodeKind.isElement)
    (id : ViewId) :
    setup.Relocates decorators source factory doc nodes (factory.instantiate id doc nodes) := by
  obtain ⟨layout, origins, laid⟩ := compiles.laid wellFormed used shape
  exact relocates_of_laid compiles origins laid id

theorem Compiles.creates {decorators : List DirectiveRef} {source : Forest NodeKind}
    {factory : Factory} (compiles : setup.Compiles decorators source factory) {doc : Document}
    (wellFormed : doc.WellFormed) (id : ViewId) :
    setup.Creates decorators source factory doc (factory.createView id doc).1
      (factory.createView id doc).2 := by
  have bare : factory.template.Bare NodeKind.isContainer :=
    compiles.bare.mono NodeKind.isElement_of_not_isContainer
  have next := wellFormed.graft factory.template bare
  have recorded := doc.recorded_graft none factory.template
  have nodes : (doc.graft none factory.template).1 = (factory.template.numbered doc.size).tops := by
    rw [Document.graft_eq]
  have ids := Forest.ids_numbered doc.size factory.template
  have size := doc.size_graft none factory.template
  have kinds := wellFormed.kinds_graft factory.template bare
  have used : ∀ node ∈ (doc.graft none factory.template).1,
      node < (doc.graft none factory.template).2.size := by
    intro node member
    rw [nodes] at member
    have inside := Forest.tops_subset_ids _ member
    rw [ids, List.mem_range'_1] at inside
    rw [size]
    exact inside.2
  change setup.Creates decorators source factory doc
    (factory.instantiate id (doc.graft none factory.template).2 (doc.graft none factory.template).1)
    (doc.graft none factory.template).2
  constructor
  case wellFormed => exact next
  case kept => exact fun node old => doc.records_graft none factory.template old
  case fresh =>
    change ((doc.graft none factory.template).2.forest (doc.graft none factory.template).1).ids = _
    rw [nodes, next.forest_eq recorded.holds, ids, size, Nat.add_sub_cancel_left]
  case parentless =>
    intro node member
    change node ∈ (doc.graft none factory.template).1 at member
    rw [nodes] at member
    exact recorded.parent_of_mem_tops node member
  case kinds => exact kinds
  case html => exact congrArg Markup.html kinds
  case relocates =>
    refine compiles.relocates next used ?_ id
    rw [kinds]

end Setup

namespace Compiler

variable {compiler : Compiler}

/-- Nodes of a compiled template, or of any template in it, are found again in every document. -/
theorem relocates_of_compileHtml {registry : Registry} {config : Config} (built : registry.Built)
    (reached : compiler.Reached registry config) {source : String} {factory : Factory}
    (success : (compiler.compileHtml source).outcome = .ok factory) {inner : Factory}
    (within : compiler.setup.Within factory inner) :
    ∃ decorators content, compiler.setup.Compiles decorators content inner ∧
      ∀ (doc : Document) (id : ViewId), doc.WellFormed →
        (∀ nodes : List NodeId, (∀ node ∈ nodes, node < doc.size) →
          (doc.kinds nodes).map NodeKind.isElement = inner.template.map NodeKind.isElement →
          compiler.setup.Relocates decorators content inner doc nodes
            (inner.instantiate id doc nodes)) ∧
        compiler.setup.Creates decorators content inner doc (inner.createView id doc).1
          (inner.createView id doc).2 := by
  obtain ⟨forest, _, _, whole⟩ := compiles_of_compileHtml built reached success
  obtain ⟨decorators, content, compiles⟩ := within.compiles whole
  exact ⟨decorators, content, compiles, fun doc id wellFormed =>
    ⟨fun nodes used shape => compiles.relocates wellFormed used shape id,
      compiles.creates wellFormed id⟩⟩

theorem relocates_of_compileHtml_paragraph : ∃ factory decorators content,
    ((Compiler.new conditionals).compileHtml
      "<p if>\x7b\x7bname\x7d\x7d</p>").outcome = .ok factory ∧
      (Compiler.new conditionals).setup.Creates decorators content factory paragraph
        (factory.createView 0 paragraph).1 (factory.createView 0 paragraph).2 := by
  have compiled : ∃ factory, ((Compiler.new conditionals).compileHtml
      "<p if>\x7b\x7bname\x7d\x7d</p>").outcome = .ok factory := exists_of_isOk (by decide +kernel)
  obtain ⟨factory, success⟩ := compiled
  obtain ⟨decorators, content, _, views⟩ :=
    relocates_of_compileHtml built_conditionals (reached_new _) success .self
  exact ⟨factory, decorators, content, success, (views paragraph 0 wellFormed_paragraph).2⟩

end Compiler

end ViewTemplates
