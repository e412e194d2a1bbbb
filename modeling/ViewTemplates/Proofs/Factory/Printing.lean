import ViewTemplates.Proofs.Compiler.Visits
import ViewTemplates.Proofs.Document.RoundTrip
import ViewTemplates.Proofs.Factory.Relocation

/-!
Compiled templates written as markup and read again. What is compiled comes from markup, so a
template has the names, texts and comments of markup, and its anchors do not end comments. Reading
loses only what a template should not hold: the anchor below a void element.
-/

namespace ViewTemplates

namespace Forest

theorem mem_preorder_of_mem_row {forest : Forest α} {level : Nat} {site : Site α}
    (member : site ∈ forest.sites level) {value : α} (inside : value ∈ site.row) :
    value ∈ forest.preorder := by
  induction forest generalizing level with
  | nil => cases member
  | cons first below rest inner outer =>
      rw [preorder, List.mem_cons, List.mem_append]
      rcases List.mem_cons.mp member with rfl | member
      · exact .inr (.inl ((roots_sublist_preorder below).mem inside))
      · rcases List.mem_append.mp member with under | beside
        · exact .inr (.inl (inner under))
        · exact .inr (.inr (outer beside))

theorem mem_preorder_of_rowAt {wanted : α → Bool} {forest : Forest α} {index : Option Nat}
    {row : List α} (found : forest.rowAt wanted index = some row) {value : α}
    (inside : value ∈ row) : value ∈ forest.preorder := by
  cases index with
  | none =>
      cases found
      exact (roots_sublist_preorder forest).mem inside
  | some index =>
      obtain ⟨site, sited, rfl⟩ := Option.map_eq_some_iff.mp found
      exact mem_preorder_of_mem_row (List.mem_of_mem_filter (List.mem_of_getElem? sited)) inside

theorem mem_preorder_of_valueAt {wanted : α → Bool} {forest : Forest α} {index : Option Nat}
    {value : α} (found : forest.valueAt wanted index = some value) : value ∈ forest.preorder := by
  cases index with
  | none => cases found
  | some index =>
      obtain ⟨site, sited, rfl⟩ := Option.map_eq_some_iff.mp found
      rw [← map_value_sites 1]
      exact List.mem_map_of_mem (List.mem_of_mem_filter (List.mem_of_getElem? sited))

end Forest

/-! Sources from markup. -/

/-- The nodes are such as markup gives: of tokens, and with something below them only if they have
an end tag. -/
structure Forest.Written (forest : Forest NodeKind) : Prop where
  lexical : ∀ kind ∈ forest.preorder, kind.Lexical
  bare : forest.Bare NodeKind.isOpen

theorem Forest.written_cons {kind : NodeKind} {below rest : Forest NodeKind} :
    (cons kind below rest).Written ↔ kind.Lexical ∧ (kind.isOpen = false → below = .nil) ∧
      below.Written ∧ rest.Written := by
  constructor
  · rintro ⟨lexical, bottom, bareBelow, bareRest⟩
    obtain ⟨ofKind, ofBelow, ofRest⟩ := forall_mem_preorder_cons.mp lexical
    exact ⟨ofKind, bottom, ⟨ofBelow, bareBelow⟩, ⟨ofRest, bareRest⟩⟩
  · rintro ⟨ofKind, bottom, below, rest⟩
    exact ⟨forall_mem_preorder_cons.mpr ⟨ofKind, below.lexical, rest.lexical⟩, bottom, below.bare,
      rest.bare⟩

theorem Markup.written_of_parse {source : String} {forest : Forest NodeKind} {events : List Event}
    (parsed : parse source = .ok (forest, events)) : forest.Written :=
  ⟨lexical_of_parse parsed, bare_isOpen_of_parse parsed⟩

/-- What an origin was taken from is such as markup gives. -/
def Origin.Written : Origin → Prop
  | kept kind => kind.Lexical
  | emptied kind content | instead kind content => kind.Lexical ∧ content.Written
  | inside => True

namespace Setup

variable {setup : Setup} {source : Forest NodeKind}

theorem written_of_mem_origins (written : source.Written) :
    ∀ origin ∈ (setup.origins source).preorder, origin.Written := by
  induction source with
  | nil => exact nofun
  | cons kind below rest inner outer =>
      obtain ⟨lexical, -, ofBelow, ofRest⟩ := Forest.written_cons.mp written
      rw [origins_cons, Forest.preorder_append, List.forall_mem_append, origins_tree]
      refine ⟨?_, outer ofRest⟩
      split
      next => exact Forest.forall_mem_preorder_cons.mpr ⟨lexical, inner ofBelow, nofun⟩
      next =>
        split
        next => exact List.forall_mem_singleton.mpr ⟨lexical, ofBelow⟩
        next =>
          exact Forest.forall_mem_preorder_cons.mpr
            ⟨⟨lexical, ofBelow⟩, List.forall_mem_singleton.mpr trivial, nofun⟩

theorem Nests.written {binders : List (ElementBinder Factory)} {inner : List DirectiveRef}
    {content : Forest NodeKind} {view : Factory} (written : source.Written)
    (nests : setup.Nests (setup.origins source) binders inner content view) : content.Written := by
  cases nests with
  | anchor _ found _ placed _ =>
      have inside := Forest.mem_preorder_of_rowAt found (List.mem_of_getElem? placed)
      exact (written_of_mem_origins written _ inside).2
  | template _ found _ =>
      exact (written_of_mem_origins written _ (Forest.mem_preorder_of_valueAt found)).2
  | component _ _ _ _ parsed => exact Markup.written_of_parse parsed

/-! The template of a source from markup. -/

theorem lexical_anchor (valid : setup.config.validate = .ok ()) : setup.anchor.Lexical := by
  rw [Config.validate] at valid
  split at valid
  next => cases valid
  next =>
    split at valid
    next => cases valid
    next =>
      split at valid
      next => cases valid
      next free =>
        refine Bool.eq_false_iff.mpr fun ends => free ?_
        exact Text.contains_of_prefix ⟨['>'], rfl⟩ ends

theorem lexical_template (valid : setup.config.validate = .ok ()) (written : source.Written) :
    ∀ kind ∈ ((setup.origins source).map setup.kindOf).preorder, kind.Lexical := by
  rw [Forest.preorder_map, List.forall_mem_map]
  intro origin member
  have lexical := written_of_mem_origins written origin member
  cases origin with
  | kept => exact lexical
  | emptied => exact lexical.1
  | inside | «instead» => exact lexical_anchor valid

/-- A void element that a template directive claims, with the anchor below it. -/
structure LosesAnchor (setup : Setup) (site : Forest.Site NodeKind) : Prop where
  void : ∃ name attributes, site.value = .element name attributes ∧ isVoid name = true
  claimed : (setup.template? site.value).isSome = true
  plain : setup.isTemplateElement site.value = false
  row : site.row = [setup.anchor]

theorem isVoid_of_claimed {kind : NodeKind} {directive : DirectiveRef}
    (claimed : setup.template? kind = some directive) (closed : kind.isOpen = false) :
    ∃ name attributes, kind = .element name attributes ∧ isVoid name = true := by
  cases kind with
  | element name attributes =>
      rw [NodeKind.isOpen, Bool.not_eq_false'] at closed
      exact ⟨name, attributes, rfl, closed⟩
  | _ =>
      rw [template?, setup.claims_of_not_isElement rfl] at claimed
      cases claimed

/-- Nothing else stands below a node that has no end tag. -/
theorem row_of_closed (written : source.Written) {level : Nat} {site : Forest.Site Origin}
    (member : site ∈ (setup.origins source).sites level)
    (closed : (setup.kindOf site.value).isOpen = false) :
    site.row = [] ∨ setup.LosesAnchor (site.map setup.kindOf) := by
  induction source generalizing level with
  | nil => cases member
  | cons kind below rest inner outer =>
      obtain ⟨-, bottom, ofBelow, ofRest⟩ := Forest.written_cons.mp written
      rw [origins_cons, Forest.sites_append, List.mem_append, origins_tree] at member
      rcases member with inTree | beside
      · split at inTree
        next =>
          rcases List.mem_cons.mp inTree with rfl | inside
          · rw [bottom closed]
            exact .inl rfl
          · rw [Forest.sites, List.append_nil] at inside
            exact inner ofBelow inside
        next directive claimed =>
          split at inTree
          next =>
            cases List.mem_singleton.mp inTree
            exact .inl rfl
          next plain =>
            rcases List.mem_cons.mp inTree with rfl | inside
            · exact .inr ⟨isVoid_of_claimed claimed closed,
                Option.isSome_iff_exists.mpr ⟨directive, claimed⟩, Bool.eq_false_iff.mpr plain, rfl⟩
            · cases List.mem_singleton.mp inside
              exact .inl rfl
      · exact outer ofRest beside

end Setup

/-! Reading what was written. -/

theorem Forest.bare_of_sites {inner : α → Bool} {forest : Forest α} {level : Nat}
    (bare : ∀ site ∈ forest.sites level, inner site.value = false → site.row = []) :
    forest.Bare inner := by
  induction forest generalizing level with
  | nil => trivial
  | cons value below rest first second =>
      rw [sites, List.forall_mem_cons, List.forall_mem_append] at bare
      refine ⟨fun closed => ?_, first bare.2.1, second bare.2.2⟩
      have empty := bare.1 closed
      cases below with
      | nil => rfl
      | cons => cases empty

/-- What is written of a forest does not show what stands below nodes without an end tag. -/
theorem Markup.html_pruned {forest : Forest NodeKind}
    (lexical : ∀ kind ∈ forest.preorder, kind.Lexical) :
    html (forest.pruned NodeKind.isOpen) = html forest := by
  suffices same : print (forest.pruned NodeKind.isOpen) = print forest by rw [html, same, html]
  induction forest with
  | nil => rfl
  | cons kind below rest inner outer =>
      obtain ⟨ofKind, ofBelow, ofRest⟩ := Forest.forall_mem_preorder_cons.mp lexical
      rw [Forest.pruned]
      cases kind with
      | fragment => cases ofKind
      | element name attributes =>
          cases void : isVoid name with
          | true => simp only [print, void, outer ofRest]
          | false => simp only [print, void, NodeKind.isOpen, Bool.not_false, inner ofBelow,
              outer ofRest]
      | text | comment => simp only [print, outer ofRest]

namespace Compiler

variable {compiler : Compiler} {registry : Registry} {config : Config}

theorem Reached.validate (reached : compiler.Reached registry config) :
    config.validate = .ok () := by
  induction reached with
  | start made =>
      rw [withConfig] at made
      split at made
      next => cases made
      next valid => exact valid
  | compileHtml _ _ induction => exact induction
  | compile _ _ _ induction => exact induction
  | compileFactory _ _ _ induction => exact induction

/-- The markup of a compiled template, and of any template in it, is read without an event. The
nodes read are those of the template in normal form, without what stands below nodes that have no
end tag; there only anchors of void elements are lost. Where no void element is claimed by a
template directive, nothing is. -/
theorem parse_html_of_compileHtml (built : registry.Built)
    (reached : compiler.Reached registry config) {source : String} {factory : Factory}
    (success : (compiler.compileHtml source).outcome = .ok factory) {inner : Factory}
    (within : compiler.setup.Within factory inner) {into : Document}
    (wellFormed : into.WellFormed) :
    ∃ roots next, into.parse inner.html = .ok (roots, next, []) ∧
      next.html roots = inner.html ∧
      next.kinds roots = (inner.template.pruned NodeKind.isOpen).normal ∧
      (∀ site ∈ inner.template.sites 1, site.value.isOpen = false →
        site.row = [] ∨ compiler.setup.LosesAnchor site) ∧
      ((∀ site ∈ inner.template.sites 1, ¬compiler.setup.LosesAnchor site) →
        next.kinds roots = inner.template.normal) := by
  obtain ⟨forest, events, parsed, whole⟩ := compiles_of_compileHtml built reached success
  obtain ⟨decorators, content, written, compiles⟩ :=
    within.compiles_keeping (fun ofSource nests => nests.written ofSource) whole
      (Markup.written_of_parse parsed)
  have valid : compiler.setup.config.validate = .ok () := by
    rw [reached.setup_eq]
    exact reached.validate
  have lexical : ∀ kind ∈ inner.template.preorder, kind.Lexical := by
    rw [compiles.template_eq]
    exact Setup.lexical_template valid written
  have losses : ∀ site ∈ inner.template.sites 1, site.value.isOpen = false →
      site.row = [] ∨ compiler.setup.LosesAnchor site := by
    rw [compiles.template_eq, Forest.sites_map, List.forall_mem_map]
    intro site member closed
    exact (Setup.row_of_closed written member closed).imp_left fun empty => by
      rw [Forest.Site.map, empty, List.map_nil]
  have canonical := Forest.canonical_normal
    (fun kind member => lexical kind ((Forest.preorder_pruned_sublist _).mem member))
    (Forest.bare_pruned inner.template)
  obtain ⟨roots, next, read, kinds⟩ := wellFormed.parse_html canonical
  have printed : Markup.html (inner.template.pruned NodeKind.isOpen).normal = inner.html := by
    rw [Markup.html_normal, Markup.html_pruned lexical, Factory.html]
  rw [printed] at read
  refine ⟨roots, next, read, ?_, kinds, losses, fun lossless => ?_⟩
  · rw [Document.html, kinds, printed]
  · have bare := Forest.bare_of_sites fun site member closed =>
      (losses site member closed).resolve_right (lossless site member)
    rw [kinds, Forest.pruned_of_bare bare]

theorem parse_html_of_compileHtml_paragraph : ∃ factory,
    ((Compiler.new conditionals).compileHtml
      "<p if>\x7b\x7bname\x7d\x7d</p>").outcome = .ok factory ∧
      ∃ roots next, Document.empty.parse factory.html = .ok (roots, next, []) ∧
        next.html roots = factory.html ∧
        next.kinds roots = (factory.template.pruned NodeKind.isOpen).normal := by
  have compiled : ∃ factory, ((Compiler.new conditionals).compileHtml
      "<p if>\x7b\x7bname\x7d\x7d</p>").outcome = .ok factory := exists_of_isOk (by decide +kernel)
  obtain ⟨factory, success⟩ := compiled
  obtain ⟨roots, next, read, html, kinds, -⟩ :=
    parse_html_of_compileHtml built_conditionals (reached_new _) success .self .empty
  exact ⟨factory, success, roots, next, read, html, kinds⟩

/-- The anchor in a void element is not written, and reading the markup does not bring it back. -/
theorem anchor_lost_in_void_element : ∃ factory,
    ((Compiler.new conditionals).compileHtml "<br if>").outcome = .ok factory ∧
      factory.template.normal =
        .tree (.element "br" [("if", "")]) (.leaf (.comment "template anchor")) ∧
      ∃ roots next, Document.empty.parse factory.html = .ok (roots, next, []) ∧
        next.kinds roots = .leaf (.element "br" [("if", "")]) := by
  obtain ⟨factory, success⟩ : ∃ factory,
      ((Compiler.new conditionals).compileHtml "<br if>").outcome = .ok factory :=
    exists_of_isOk (by decide +kernel)
  have shown : ((Compiler.new conditionals).compileHtml "<br if>").outcome.toOption.map
      Factory.template =
        some (.tree (.element "br" [("if", "")]) (.leaf (.comment "template anchor"))) := by
    decide +kernel
  rw [success] at shown
  have template : factory.template =
      .tree (.element "br" [("if", "")]) (.leaf (.comment "template anchor")) :=
    Option.some.inj shown
  have canonical : (Forest.leaf (NodeKind.element "br" [("if", "")])).Canonical := by
    decide +kernel
  have html : factory.html = Markup.html (.leaf (.element "br" [("if", "")])) := by
    rw [Factory.html, template]
    decide +kernel
  refine ⟨factory, success, by rw [template]; decide +kernel, ?_⟩
  rw [html]
  exact Document.WellFormed.empty.parse_html canonical

end Compiler

end ViewTemplates
