import ViewTemplates.Compiler.Basic
import ViewTemplates.Proofs.Forest

/-!
What a compiled template is, said of the source without following the compiler: where the nodes of
the template come from, and what each binder has to hold.
-/

namespace ViewTemplates

/-- Where a node of a compiled template comes from. -/
inductive Origin where
  /-- A node of the source, with what is below it. -/
  | kept (kind : NodeKind)
  /-- An element of the source whose content went into a template of its own. -/
  | emptied (kind : NodeKind) (content : Forest NodeKind)
  /-- The anchor inside such an element. -/
  | inside
  /-- The anchor instead of a template element. -/
  | instead (kind : NodeKind) (content : Forest NodeKind)

namespace Origin

def isElement : Origin → Bool
  | kept kind | emptied kind _ => kind.isElement
  | inside | instead .. => false

end Origin

namespace Setup

variable (setup : Setup)

def decorators (kind : NodeKind) : List DirectiveRef :=
  decoratorsOf (setup.registry.matchingNode kind)

def claims (kind : NodeKind) : List Claim := claimsOf (setup.registry.matchingNode kind)

/-- The template directive that claims a node, if it is the only claim. -/
def template? (kind : NodeKind) : Option DirectiveRef :=
  match setup.claims kind with
  | [.template directive] => some directive
  | _ => none

def isTemplateElement : NodeKind → Bool
  | .element name _ => setup.isTemplateTag name
  | _ => false

def kindOf : Origin → NodeKind
  | .kept kind | .emptied kind _ => kind
  | .inside | .instead .. => setup.anchor

/-- The nodes of the template that a source is compiled to. -/
def origins : Forest NodeKind → Forest Origin
  | .nil => .nil
  | .cons kind below rest =>
      (match setup.template? kind with
        | none => .tree (.kept kind) (origins below)
        | some _ =>
            if setup.isTemplateElement kind then .leaf (.instead kind below)
            else .tree (.emptied kind below) (.leaf .inside)) ++ origins rest

/-- An interpolated text, or the anchor of a template element. -/
def isBound : Origin → Bool
  | .kept (.text value) => setup.config.interpolation.requiresBinding value
  | .instead .. => true
  | _ => false

inductive SlotFits : Origin → SlotKind Factory → Prop where
  | text {value : String} :
      setup.config.interpolation.requiresBinding value = true → SlotFits (.kept (.text value)) .text
  | anchor {kind : NodeKind} {content : Forest NodeKind} {directive : DirectiveRef}
      {view : Factory} :
      setup.claims kind = [.template directive] →
      SlotFits (.instead kind content) (.anchor ⟨directive, view⟩)

/-- The slots are the bound nodes of the row, from the left. -/
structure SlotsFit (row : List Origin) (slots : List (Slot Factory)) : Prop where
  ascending : (slots.map (·.position)).Pairwise (· < ·)
  complete : ∀ (position : Nat) (origin : Origin), row[position]? = some origin →
    setup.isBound origin = true → ∃ slot ∈ slots, slot.position = position
  sound : ∀ slot ∈ slots, ∃ origin, row[slot.position]? = some origin ∧
    setup.SlotFits origin slot.kind

/-- A given view is used as it is; markup can be read. -/
def ViewFits : ComponentSource → Factory → Prop
  | .compiled factory, view => view = factory
  | .inline markup, _ => ∃ forest events, Markup.parse markup = .ok (forest, events)

inductive RoleFits : Origin → Role Factory → Prop where
  | decorated {kind : NodeKind} : setup.claims kind = [] → RoleFits (.kept kind) .decorated
  | component {kind : NodeKind} {directive : DirectiveRef} {source : ComponentSource}
      {view : Factory} :
      setup.claims kind = [.component directive source] → ViewFits source view →
      RoleFits (.kept kind) (.component ⟨directive, view⟩)
  | template {kind : NodeKind} {content : Forest NodeKind} {directive : DirectiveRef}
      {view : Factory} :
      setup.claims kind = [.template directive] →
      RoleFits (.emptied kind content) (.template ⟨directive, view⟩)

/-- The binder of the top level; the decorators are those of a template element. -/
structure RootFits (decorators : List DirectiveRef) (row : List Origin)
    (binder : ElementBinder Factory) : Prop where
  level : binder.level = 0
  elementIndex : binder.elementIndex = none
  decorators : binder.decorators = decorators
  role : binder.role = .decorated
  slots : setup.SlotsFit row binder.slots

structure BinderFits (site : Forest.Site Origin) (binder : ElementBinder Factory) : Prop where
  level : binder.level = site.level
  decorators : binder.decorators = setup.decorators (setup.kindOf site.value)
  registered : (binder.decorators.map (·.index)).Pairwise (· < ·)
  role : setup.RoleFits site.value binder.role
  slots : setup.SlotsFit site.row binder.slots

/-- Is anything bound at the element or right below it? -/
def IsBoundSite (site : Forest.Site Origin) : Prop :=
  setup.registry.matchingNode (setup.kindOf site.value) ≠ [] ∨
    ∃ origin ∈ site.row, setup.isBound origin = true

/-- The binders of the elements: one for each at which anything is bound, in document order. -/
structure BindersFit (origins : Forest Origin) (binders : List (ElementBinder Factory)) :
    Prop where
  indexed : ∃ indices : List Nat, binders.map (·.elementIndex) = indices.map some ∧
    indices.Pairwise (· < ·)
  complete : ∀ (index : Nat) (site : Forest.Site Origin),
    (origins.sitesOf Origin.isElement)[index]? = some site →
    ((∃ binder ∈ binders, binder.elementIndex = some index) ↔ setup.IsBoundSite site)
  sound : ∀ binder ∈ binders, ∀ index, binder.elementIndex = some index →
    ∃ site, (origins.sitesOf Origin.isElement)[index]? = some site ∧ setup.BinderFits site binder

end Setup

namespace Forest

/-- The row in which a binder's slots are: the top row, or the one below its element. -/
def rowAt (wanted : α → Bool) (forest : Forest α) : Option Nat → Option (List α)
  | none => some forest.roots
  | some index => (forest.sitesOf wanted)[index]?.map (·.row)

def valueAt (wanted : α → Bool) (forest : Forest α) : Option Nat → Option α
  | none => none
  | some index => (forest.sitesOf wanted)[index]?.map (·.value)

end Forest

/-- The binders of a source hold a view that was made from other nodes: the content that a template
directive took, or the markup of a component. -/
inductive Setup.Nests (setup : Setup) (origins : Forest Origin)
    (binders : List (ElementBinder Factory)) :
    List DirectiveRef → Forest NodeKind → Factory → Prop where
  | anchor {binder : ElementBinder Factory} {row : List Origin} {slot : Slot Factory}
      {kind : NodeKind} {content : Forest NodeKind} {binding : Binding Factory} :
      binder ∈ binders → origins.rowAt Origin.isElement binder.elementIndex = some row →
      slot ∈ binder.slots → row[slot.position]? = some (.instead kind content) →
      slot.kind = .anchor binding →
      Nests setup origins binders (setup.decorators kind) content binding.view
  | template {binder : ElementBinder Factory} {kind : NodeKind} {content : Forest NodeKind}
      {binding : Binding Factory} :
      binder ∈ binders →
      origins.valueAt Origin.isElement binder.elementIndex = some (.emptied kind content) →
      binder.role = .template binding →
      Nests setup origins binders [] content binding.view
  | component {binder : ElementBinder Factory} {kind : NodeKind} {directive : DirectiveRef}
      {markup : String} {forest : Forest NodeKind} {events : List Event}
      {binding : Binding Factory} :
      binder ∈ binders → origins.valueAt Origin.isElement binder.elementIndex = some (.kept kind) →
      setup.claims kind = [.component directive (.inline markup)] →
      binder.role = .component binding → Markup.parse markup = .ok (forest, events) →
      Nests setup origins binders [] forest binding.view

/-- The factory is what the source is compiled to, and so is every factory in it. -/
inductive Setup.Compiles (setup : Setup) :
    List DirectiveRef → Forest NodeKind → Factory → Prop where
  | intro {decorators : List DirectiveRef} {source : Forest NodeKind}
      {root : ElementBinder Factory} {binders : List (ElementBinder Factory)} :
      source.Bare NodeKind.isElement →
      setup.RootFits decorators (setup.origins source).roots root →
      setup.BindersFit (setup.origins source) binders →
      (∀ inner content view,
        setup.Nests (setup.origins source) (root :: binders) inner content view →
        Compiles setup inner content view) →
      Compiles setup decorators source
        (.mk ((setup.origins source).map setup.kindOf) (root :: binders))

end ViewTemplates
