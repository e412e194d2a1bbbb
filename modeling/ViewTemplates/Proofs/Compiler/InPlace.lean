import ViewTemplates.Proofs.Compiler.Components
import ViewTemplates.Proofs.Compiler.Layout
import ViewTemplates.Proofs.Compiler.Rebuilding

/-!
Compilation in place. What stands in the document afterwards is the template of the nodes compiled,
and the binders are read off marks that fit it.
-/

namespace ViewTemplates.Compiler

open Document

variable {compiler : Compiler} {compiles : List DirectiveRef → Forest NodeKind → Factory → Prop}
  {viewed : ComponentSource → Factory → Prop} {keeps : Progress → Prop}

/-- The marks of a source that was compiled in place. -/
structure Fits (compiler : Compiler)
    (compiles : List DirectiveRef → Forest NodeKind → Factory → Prop)
    (viewed : ComponentSource → Factory → Prop) (doc next : Document)
    (source : Forest (NodeId × NodeKind)) (places : List NodeId) (marks : Forest (Mark Factory))
    (anchorOf : NodeId → NodeId) : Prop where
  relaid : compiler.setup.Relaid doc next source places anchorOf
  edited : next = compiler.setup.edited doc (compiler.setup.edits source)
  aligned : Forest.Aligned (compiler.setup.MarkFits compiles viewed)
    (compiler.setup.origins (source.map Prod.snd)) marks

theorem isReplaced_eq {setup : Setup} {kind : NodeKind} {below : Forest NodeKind}
    {marks : Forest (Mark Factory)}
    (aligned : Forest.Aligned (setup.MarkFits compiles viewed)
      (setup.origins (.tree kind below)) marks) :
    isReplaced marks = setup.isReplaced kind := by
  rw [Setup.origins_tree] at aligned
  rw [Setup.isReplaced]
  cases claimed : setup.template? kind with
  | none =>
      simp only [claimed] at aligned
      cases aligned with
      | cons head _ _ => cases head <;> rfl
  | some directive =>
      simp only [claimed] at aligned
      cases tag : setup.isTemplateElement kind with
      | true =>
          simp only [tag, if_true] at aligned
          cases aligned with
          | cons head _ _ => cases head; rfl
      | false =>
          simp only [tag] at aligned
          cases aligned with
          | cons head _ _ => cases head; rfl

section walk
variable (closed : compiler.setup.Closed compiles viewed)
  (views : compiler.setup.ViewsSound viewed keeps compiler.viewOf)
include closed views

theorem compileNode_eq_ok {site last : Site} {entry : NodeId × NodeKind}
    {below : Forest (NodeId × NodeKind)} {node : NodeId} {marks : Forest (Mark Factory)}
    (shows : Setup.Shows site.doc (.tree entry below))
    (bare : ((Forest.tree entry below).map Prod.snd).Bare NodeKind.isElement)
    (kept : keeps site.progress)
    (run : compiler.compileNode entry.1 site = .ok (node, marks) last) :
    last.doc = compiler.setup.edited site.doc (compiler.setup.edits (.tree entry below)) ∧
      node = (if compiler.setup.isReplaced entry.2 then last.doc.size - 1 else entry.1) ∧
      Forest.Aligned (compiler.setup.MarkFits compiles viewed)
        (compiler.setup.origins ((Forest.tree entry below).map Prod.snd)) marks ∧
      keeps last.progress := by
  have source : site.doc.forest [entry.1] = .tree entry below :=
    shows.wellFormed.forest_eq shows.holds
  rw [compileNode, source] at run
  split at run
  · cases run
  next found stage marked =>
    obtain ⟨aligned, edits⟩ :=
      Setup.mark_fits views closed bare (by exact kept) marked
    rw [List.nil_append] at edits
    cases run
    rw [edits, isReplaced_eq aligned]
    exact ⟨rfl, rfl, aligned, (Setup.preserves_mark views _).ok (by exact kept) marked⟩

theorem fits_of_compileNode {site last : Site} {entry : NodeId × NodeKind}
    {below : Forest (NodeId × NodeKind)} {node : NodeId} {marks : Forest (Mark Factory)}
    (shows : Setup.Shows site.doc (.tree entry below))
    (bare : ((Forest.tree entry below).map Prod.snd).Bare NodeKind.isElement)
    (kept : keeps site.progress)
    (run : compiler.compileNode entry.1 site = .ok (node, marks) last) :
    ∃ anchorOf, compiler.Fits compiles viewed site.doc last.doc (.tree entry below) [node] marks
      anchorOf ∧ keeps last.progress := by
  obtain ⟨edited, placed, aligned, still⟩ :=
    compileNode_eq_ok closed views shows bare kept run
  obtain ⟨anchorOf, relaid⟩ := compiler.setup.relaid_tree shows.listed
  rw [Forest.reached_of_bare bare, ← edited, ← placed] at relaid
  exact ⟨anchorOf, ⟨relaid, edited, aligned⟩, still⟩

theorem fits_of_compileEach {site last : Site} {source : Forest (NodeId × NodeKind)}
    {places : List NodeId} {marks : Forest (Mark Factory)} (shows : Setup.Shows site.doc source)
    (bare : (source.map Prod.snd).Bare NodeKind.isElement) (kept : keeps site.progress)
    (run : compiler.compileEach source.tops site = .ok (places, marks) last) :
    ∃ anchorOf, compiler.Fits compiles viewed site.doc last.doc source places marks anchorOf := by
  induction source generalizing site places marks with
  | nil =>
      cases run
      exact ⟨id, .nil shows.wellFormed, rfl, .nil⟩
  | cons entry below rest _ induction =>
      obtain ⟨⟨node, head⟩, middle, first, following⟩ := bind_eq_ok run
      obtain ⟨⟨later, tail⟩, final, second, made⟩ := bind_eq_ok following
      cases made
      rw [← Forest.tree_append] at shows ⊢
      obtain ⟨anchorOf, fits, still⟩ :=
        fits_of_compileNode closed views shows.front ⟨bare.1, bare.2.1, trivial⟩ kept first
      obtain ⟨anchorOfRest, fitsRest⟩ :=
        induction (fits.relaid.shows_rest shows) bare.2.2 still second
      obtain ⟨anchors, relaid⟩ := fits.relaid.append fitsRest.relaid shows.listed
      refine ⟨anchors, relaid, ?_, ?_⟩
      · rw [fitsRest.edited, fits.edited, Setup.edits_append, Setup.edited_append]
      · rw [Forest.map_append, Setup.origins_append]
        exact fits.aligned.append fitsRest.aligned

end walk

/-- What a compilation in place leaves behind. -/
structure Result (compiler : Compiler)
    (compiles : List DirectiveRef → Forest NodeKind → Factory → Prop)
    (viewed : ComponentSource → Factory → Prop) (doc next : Document) (nodes : List NodeId)
    (compiled : Compiled) (layout : Forest (NodeId × Origin)) (marks : Forest (Mark Factory)) :
    Prop where
  wellFormed : next.WellFormed
  bare : (doc.kinds nodes).Bare NodeKind.isElement
  origins : layout.map Prod.snd = compiler.setup.origins (doc.kinds nodes)
  tops : layout.tops = compiled.nodes
  holds : next.Holds (layout.map fun entry => (entry.1, compiler.setup.kindOf entry.2))
  used : ∀ node ∈ compiled.nodes, node < next.size
  aligned : Forest.Aligned (compiler.setup.MarkFits compiles viewed)
    (compiler.setup.origins (doc.kinds nodes)) marks
  binders : compiled.binders = Mark.binders [] marks

section result
variable {doc next : Document} {nodes : List NodeId} {compiled : Compiled}
  {layout : Forest (NodeId × Origin)} {marks : Forest (Mark Factory)}
  (result : compiler.Result compiles viewed doc next nodes compiled layout marks)
include result

theorem Result.forest_eq : next.forest compiled.nodes =
    layout.map fun entry => (entry.1, compiler.setup.kindOf entry.2) := by
  rw [← result.wellFormed.forest_eq result.holds, Forest.tops_map, result.tops]

theorem Result.laid : next.Laid compiled.nodes layout := by
  rw [← result.tops]
  exact result.wellFormed.laid_of_kindOf result.holds (result.tops.symm ▸ result.used)

theorem Result.factory_eq :
    Factory.mk (next.kinds compiled.nodes) compiled.binders = .ofMarks [] marks := by
  have kinds : next.kinds compiled.nodes =
      (layout.map Prod.snd).map compiler.setup.kindOf := by
    rw [kinds, result.forest_eq, Forest.map_map, Forest.map_map]
    rfl
  rw [kinds, result.origins, result.aligned.map_eq fun _ _ fits => Setup.MarkFits.kind_eq fits,
    result.binders]
  rfl

end result

theorem shows_forest {doc : Document} {nodes : List NodeId} (wellFormed : doc.WellFormed)
    (apart : doc.Apart nodes)
    (fragmentFree : ∀ kind ∈ (doc.kinds nodes).preorder, kind ≠ .fragment) :
    Setup.Shows doc (doc.forest nodes) :=
  Setup.shows_of_apart wellFormed (wellFormed.lt_size_of_fragmentFree fragmentFree) apart

/-- A compilation that succeeds has compiled each of the nodes. -/
theorem compile_eq_ok {doc : Document} {nodes : List NodeId} {compiled : Compiled}
    (success : (compiler.compile doc nodes).1.outcome = .ok compiled) :
    ∃ marks site, compiler.compileEach nodes ⟨compiler.start, doc⟩ =
        .ok (compiled.nodes, marks) site ∧
      (compiler.compile doc nodes).2 = site.doc ∧ compiled.binders = Mark.binders [] marks := by
  rw [compile, onDocument] at success ⊢
  cases run : compiler.compileNodes nodes ⟨compiler.start, doc⟩ with
  | error error site =>
      rw [run] at success
      cases success
  | ok found site =>
      rw [run] at success
      cases success
      obtain ⟨⟨places, marks⟩, middle, walked, made⟩ := bind_eq_ok run
      cases made
      exact ⟨marks, middle, walked, rfl, rfl⟩

theorem result_of_compile (closed : compiler.setup.Closed compiles viewed)
    (views : compiler.setup.ViewsSound viewed keeps compiler.viewOf)
    (kept : keeps compiler.start) {doc : Document} {nodes : List NodeId}
    (wellFormed : doc.WellFormed) (apart : doc.Apart nodes)
    (fragmentFree : ∀ kind ∈ (doc.kinds nodes).preorder, kind ≠ .fragment) {compiled : Compiled}
    (success : (compiler.compile doc nodes).1.outcome = .ok compiled) :
    ∃ layout marks, compiler.Result compiles viewed doc (compiler.compile doc nodes).2 nodes
      compiled layout marks := by
  obtain ⟨holds, tops⟩ := wellFormed.holds_forest nodes
  have shows := shows_forest wellFormed apart fragmentFree
  have bare := holds.bare wellFormed fragmentFree
  obtain ⟨marks, site, walked, last, binders⟩ := compile_eq_ok success
  rw [← tops] at walked
  obtain ⟨anchorOf, relaid, -, aligned⟩ := fits_of_compileEach closed views shows bare kept walked
  obtain ⟨holdsNext, topsNext⟩ := relaid.holds shows
  rw [Setup.rebuilt_of_bare bare] at holdsNext topsNext
  rw [Forest.tops_map] at topsNext
  rw [last]
  exact ⟨compiler.setup.placed anchorOf (doc.forest nodes), marks, relaid.extracted.wellFormed,
    bare, Setup.map_snd_placed _, topsNext, holdsNext, relaid.used shows, aligned, binders⟩

/-- The template stands in the document in place of its source, and it is as specified with its
binders, as is every factory in them. -/
def Specified (compiler : Compiler) (doc next : Document) (nodes : List NodeId)
    (compiled : Compiled) : Prop :=
  ∃ layout : Forest (NodeId × Origin),
    layout.map Prod.snd = compiler.setup.origins (doc.kinds nodes) ∧
    next.Laid compiled.nodes layout ∧
    next.forest compiled.nodes =
      layout.map (fun entry => (entry.1, compiler.setup.kindOf entry.2)) ∧
    compiler.setup.Compiles [] (doc.kinds nodes)
      (.mk (next.kinds compiled.nodes) compiled.binders)

theorem compile_specified {registry : Registry} {config : Config} (built : registry.Built)
    (reached : compiler.Reached registry config) {doc : Document} {nodes : List NodeId}
    (wellFormed : doc.WellFormed) (apart : doc.Apart nodes)
    (fragmentFree : ∀ kind ∈ (doc.kinds nodes).preorder, kind ≠ .fragment) {compiled : Compiled}
    (success : (compiler.compile doc nodes).1.outcome = .ok compiled) :
    compiler.Specified doc (compiler.compile doc nodes).2 nodes compiled := by
  have ascending := reached.ascending built
  have closed := Setup.closed_compiles ascending
  obtain ⟨layout, marks, result⟩ := result_of_compile closed (viewsSound ascending)
    (reached.keeps built) wellFormed apart fragmentFree success
  refine ⟨layout, result.origins, result.laid, result.forest_eq, ?_⟩
  rw [result.factory_eq]
  exact closed [] _ marks result.bare result.aligned

/-! A paragraph with an interpolated text, the paragraph being claimed by a template directive. -/

theorem withConfig_default (registry : Registry) :
    Compiler.withConfig registry .default = .ok (.new registry) := by
  have valid : Config.default.validate = .ok () := rfl
  rw [withConfig, valid]
  rfl

theorem reached_new (registry : Registry) : (Compiler.new registry).Reached registry .default :=
  .start (withConfig_default registry)

def conditionals : Registry := Registry.empty.adding ⟨"If", "[if]", .template⟩

theorem built_conditionals : conditionals.Built := Registry.Built.empty.adding _

def paragraph : Document :=
  ⟨#[⟨.element "p" [("if", "")], none, [1]⟩, ⟨.text "\x7b\x7bname\x7d\x7d", some 0, []⟩]⟩

theorem wellFormed_paragraph : paragraph.WellFormed := by
  let nodes := (Document.empty.create (.element "p" [("if", "")])).create
    (.text "\x7b\x7bname\x7d\x7d")
  have created : nodes.WellFormed := (WellFormed.empty.create _).create _
  have inserted : nodes.insertBefore 0 1 none = .ok paragraph := by decide
  exact created.insertBefore (by decide) (by decide) inserted

theorem kinds_paragraph : paragraph.kinds [0] =
    .tree (.element "p" [("if", "")]) (.leaf (.text "\x7b\x7bname\x7d\x7d")) := by decide

theorem fragmentFree_paragraph : ∀ kind ∈ (paragraph.kinds [0]).preorder, kind ≠ .fragment := by
  rw [kinds_paragraph]
  simp [Forest.preorder]

theorem compiled_paragraph : ∃ compiled,
    ((Compiler.new conditionals).compile paragraph [0]).1.outcome = .ok compiled :=
  exists_of_isOk (by decide +kernel)

theorem compile_specified_paragraph : ∃ compiled,
    ((Compiler.new conditionals).compile paragraph [0]).1.outcome = .ok compiled ∧
      (Compiler.new conditionals).Specified paragraph
        ((Compiler.new conditionals).compile paragraph [0]).2 [0] compiled := by
  obtain ⟨compiled, success⟩ := compiled_paragraph
  exact ⟨compiled, success, compile_specified built_conditionals (reached_new _)
    wellFormed_paragraph (List.pairwise_singleton _ _) fragmentFree_paragraph success⟩

end ViewTemplates.Compiler
