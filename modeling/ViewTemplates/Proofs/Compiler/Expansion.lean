import ViewTemplates.Proofs.Compiler.InPlace

/-!
Expansion of a compiled template: the views of its template directives are put back in place of
their anchors. Nothing gets lost on the way, the expansion is the source in which each replaced
template element gives way to its content.
-/

namespace ViewTemplates

namespace Factory

/-! The expanded views of the binders, by the element or the position that they are for. -/

variable (binders : List (ElementBinder (Forest NodeKind)))

def binderAt (place : Option Nat) : Option (ElementBinder (Forest NodeKind)) :=
  binders.find? fun binder => binder.elementIndex == place

def roleAt (index : Nat) : Role (Forest NodeKind) :=
  ((binderAt binders (some index)).map (·.role)).getD .decorated

def slotsAt (place : Option Nat) : List (Slot (Forest NodeKind)) :=
  ((binderAt binders place).map (·.slots)).getD []

def anchorAt (slots : List (Slot (Forest NodeKind))) (position : Nat) : Option (Forest NodeKind) :=
  (slots.find? fun slot => slot.position == position).bind fun slot =>
    slot.kind.binding?.map (·.view)

end Factory

namespace Forest

def later : Forest α → Forest α
  | .nil => .nil
  | .cons _ _ rest => rest

def elementCount (forest : Forest NodeKind) : Nat :=
  (forest.preorder.filter NodeKind.isElement).length

end Forest

namespace Factory

/-- Put the expanded views into a row of a template. The first node of the row has the position, and
the first element in it or below it the index. The view of a bound anchor takes the place of the
anchor; that of a template role takes the place of the first node below the element. -/
def expandRow (binders : List (ElementBinder (Forest NodeKind))) :
    List (Slot (Forest NodeKind)) → Nat → Nat → Forest NodeKind → Forest NodeKind
  | _, _, _, .nil => .nil
  | slots, position, index, .cons kind below rest =>
      let first := if kind.isElement then index + 1 else index
      let expandedRest :=
        expandRow binders slots (position + 1) (first + below.elementCount) rest
      match anchorAt slots position with
      | some view => view ++ expandedRest
      | none =>
          match kind.isElement, roleAt binders index with
          | true, .template binding => .cons kind (binding.view ++ below.later) expandedRest
          | true, _ =>
              .cons kind (expandRow binders (slotsAt binders (some index)) 0 first below)
                expandedRest
          | false, _ => .cons kind (expandRow binders [] 0 first below) expandedRest

/-- The template with the templates of all template directives in it, at every depth. -/
def expand : Factory → Forest NodeKind :=
  fold fun template binders => expandRow binders (slotsAt binders none) 0 0 template

theorem expand_mk (template : Forest NodeKind) (binders : List (ElementBinder Factory)) :
    (mk template binders).expand =
      expandRow (binders.map (·.map expand)) (slotsAt (binders.map (·.map expand)) none) 0 0
        template := by
  rw [expand, fold_mk]

section equations
variable {binders : List (ElementBinder (Forest NodeKind))} {slots : List (Slot (Forest NodeKind))}
  {position index : Nat} {kind : NodeKind} {below rest : Forest NodeKind}

theorem expandRow_anchor {view : Forest NodeKind} (leaf : kind.isElement = false)
    (anchored : anchorAt slots position = some view) :
    expandRow binders slots position index (.cons kind .nil rest) =
      view ++ expandRow binders slots (position + 1) index rest := by
  rw [expandRow, leaf, anchored]
  rfl

theorem expandRow_leaf (leaf : kind.isElement = false)
    (unanchored : anchorAt slots position = none) :
    expandRow binders slots position index (.cons kind .nil rest) =
      .cons kind .nil (expandRow binders slots (position + 1) index rest) := by
  rw [expandRow, leaf, unanchored]
  rfl

theorem expandRow_template {binding : Binding (Forest NodeKind)} {anchor : NodeKind}
    (isElement : kind.isElement = true) (leaf : anchor.isElement = false)
    (unanchored : anchorAt slots position = none)
    (role : roleAt binders index = .template binding) :
    expandRow binders slots position index (.cons kind (.leaf anchor) rest) =
      .cons kind binding.view (expandRow binders slots (position + 1) (index + 1) rest) := by
  have none : (Forest.leaf anchor).elementCount = 0 := by
    simp [Forest.elementCount, Forest.preorder, leaf]
  rw [expandRow, isElement, unanchored, role, none]
  simp only [Forest.later, Forest.append_nil]
  rfl

theorem expandRow_element (isElement : kind.isElement = true)
    (unanchored : anchorAt slots position = none)
    (role : ∀ binding, roleAt binders index ≠ .template binding) :
    expandRow binders slots position index (.cons kind below rest) =
      .cons kind (expandRow binders (slotsAt binders (some index)) 0 (index + 1) below)
        (expandRow binders slots (position + 1) (index + 1 + below.elementCount) rest) := by
  rw [expandRow, isElement, unanchored]
  cases atIndex : roleAt binders index with
  | template binding => exact absurd atIndex (role binding)
  | decorated => rfl
  | component => rfl

end equations

end Factory

namespace Setup

/-- Each template element that is claimed by a template directive gives way to its content. -/
def dissolve (setup : Setup) : Forest NodeKind → Forest NodeKind
  | .nil => .nil
  | .cons kind below rest =>
      (if setup.isReplaced kind then dissolve setup below
        else .tree kind (dissolve setup below)) ++ dissolve setup rest

theorem dissolve_replaced {setup : Setup} {kind : NodeKind}
    (replaced : setup.isReplaced kind = true) (below rest : Forest NodeKind) :
    setup.dissolve (.cons kind below rest) = setup.dissolve below ++ setup.dissolve rest := by
  rw [dissolve, if_pos replaced]

theorem dissolve_left {setup : Setup} {kind : NodeKind} (left : setup.isReplaced kind = false)
    (below rest : Forest NodeKind) :
    setup.dissolve (.cons kind below rest) =
      .cons kind (setup.dissolve below) (setup.dissolve rest) := by
  rw [dissolve, if_neg (Bool.eq_false_iff.mp left), Forest.tree_append]

/-- All nodes but these elements are left, each once and in order. -/
theorem preorder_dissolve (setup : Setup) (forest : Forest NodeKind) :
    (setup.dissolve forest).preorder =
      forest.preorder.filter fun kind => !setup.isReplaced kind := by
  induction forest with
  | nil => rfl
  | cons kind below rest inner outer =>
      rw [dissolve, Forest.preorder_append, Forest.preorder, List.filter_cons, List.filter_append,
        outer, ← inner]
      cases setup.isReplaced kind with
      | true => rfl
      | false => simp [Forest.preorder]

end Setup

theorem Mark.find?_indexed (binders : List (ElementBinder φ)) (index offset : Nat) :
    (indexed index binders).find? (fun binder => binder.elementIndex == some (index + offset)) =
      (binders[offset]?.filter ElementBinder.hasBindings).map fun binder =>
        { binder with elementIndex := some (index + offset) } := by
  induction binders generalizing index offset with
  | nil => rfl
  | cons first rest induction =>
      rw [indexed_cons]
      cases offset with
      | zero =>
          rw [List.getElem?_cons_zero, Option.filter_some]
          cases bound : first.hasBindings with
          | true => simp
          | false =>
              rw [if_neg Bool.false_ne_true, if_neg Bool.false_ne_true, Option.map_none,
                List.find?_eq_none]
              intro binder member
              obtain ⟨offset, found, _, _, rfl⟩ := exists_of_mem_indexed member
              simp
              omega
      | succ offset =>
          have later := induction (index + 1) offset
          rw [Nat.add_assoc, Nat.add_comm 1] at later
          rw [List.getElem?_cons_succ, ← later]
          split
          · rw [List.find?_cons_of_neg]
            simp
          · rfl

namespace Factory

/-- From the index on, each element has what one of the entries binds there. -/
def Covers (binders : List (ElementBinder (Forest NodeKind))) (index : Nat)
    (entries : List (ElementBinder Factory)) : Prop :=
  ∀ (offset : Nat) (entry : ElementBinder Factory), entries[offset]? = some entry →
    roleAt binders (index + offset) = entry.role.map expand ∧
      slotsAt binders (some (index + offset)) = entry.slots.map (·.map expand)

theorem binderAt_map (binders : List (ElementBinder Factory)) (place : Option Nat) :
    binderAt (binders.map (·.map expand)) place =
      (binders.find? fun binder => binder.elementIndex == place).map (·.map expand) := by
  rw [binderAt, List.find?_map]
  rfl

theorem covers_binders (decorators : List DirectiveRef) (marks : Forest (Mark Factory)) :
    Covers ((Mark.binders decorators marks).map (·.map expand)) 0 (Mark.bindersFrom 1 marks) := by
  intro offset entry found
  have looked : binderAt ((Mark.binders decorators marks).map (·.map expand)) (some (0 + offset)) =
      ((some entry).filter ElementBinder.hasBindings).map fun binder =>
        { binder.map expand with elementIndex := some (0 + offset) } := by
    rw [binderAt_map, Mark.binders_eq, List.find?_cons_of_neg (by simp), Mark.find?_indexed, found,
      Option.map_map]
    rfl
  rw [roleAt, slotsAt, looked, Option.filter_some]
  -- An element that has no binder has no bindings either.
  cases bound : entry.hasBindings with
  | true => exact ⟨rfl, rfl⟩
  | false =>
      obtain ⟨level, index, decorators, role, slots⟩ := entry
      simp only [ElementBinder.hasBindings, Bool.or_eq_false_iff, Bool.not_eq_false'] at bound
      obtain ⟨⟨_, undirected⟩, empty⟩ := bound
      obtain rfl := List.isEmpty_iff.mp empty
      cases role with
      | decorated => exact ⟨rfl, rfl⟩
      | template => cases undirected
      | component => cases undirected

namespace Covers

variable {binders : List (ElementBinder (Forest NodeKind))} {index : Nat}
  {entry : ElementBinder Factory} {first second : List (ElementBinder Factory)}

theorem head (covers : Covers binders index (entry :: first)) :
    roleAt binders index = entry.role.map expand ∧
      slotsAt binders (some index) = entry.slots.map (·.map expand) :=
  covers 0 entry rfl

theorem tail (covers : Covers binders index (entry :: first)) :
    Covers binders (index + 1) first := by
  intro offset other found
  rw [Nat.add_assoc, Nat.add_comm 1]
  exact covers (offset + 1) other found

theorem left (covers : Covers binders index (first ++ second)) : Covers binders index first := by
  intro offset other found
  apply covers offset other
  rw [List.getElem?_append_left (List.getElem?_eq_some_iff.mp found).1, found]

theorem right (covers : Covers binders index (first ++ second)) :
    Covers binders (index + first.length) second := by
  intro offset other found
  rw [Nat.add_assoc]
  apply covers (first.length + offset) other
  rw [List.getElem?_append_right (Nat.le_add_right _ _), Nat.add_sub_cancel_left, found]

end Covers

def viewOfMark : Mark Factory → Option (Forest NodeKind)
  | .slot _ kind => (kind.map expand).binding?.map (·.view)
  | _ => none

theorem anchorAt_later (marks : Forest (Mark Factory)) (position : Nat) :
    anchorAt ((Mark.slotsFrom (position + 1) marks).map (·.map expand)) position = none := by
  rw [anchorAt, List.find?_eq_none.mpr]
  · rfl
  · intro slot member
    obtain ⟨original, inside, rfl⟩ := List.mem_map.mp member
    obtain ⟨offset, _, place, _⟩ := Mark.exists_of_mem_slotsFrom inside
    simp only [Slot.map, place, beq_iff_eq]
    omega

theorem anchorAt_slotsFrom (marks : Forest (Mark Factory)) (position offset : Nat) :
    anchorAt ((Mark.slotsFrom position marks).map (·.map expand)) (position + offset) =
      marks.roots[offset]?.bind viewOfMark := by
  induction marks generalizing position offset with
  | nil => rfl
  | cons mark below rest _ induction =>
      cases offset with
      | zero =>
          cases mark with
          | slot kind slotKind =>
              rw [Mark.slotsFrom, List.map_cons, anchorAt,
                List.find?_cons_of_pos (by simp [Slot.map])]
              rfl
          | element => exact anchorAt_later rest position
          | unbound => exact anchorAt_later rest position
      | succ offset =>
          have later := induction (position + 1) offset
          rw [Nat.add_assoc, Nat.add_comm 1] at later
          cases mark with
          | slot kind slotKind =>
              rw [Mark.slotsFrom, List.map_cons, anchorAt,
                List.find?_cons_of_neg (by simp [Slot.map])]
              exact later
          | element => exact later
          | unbound => exact later

/-- At each position there is the view of the anchor at that offset in the marked row. -/
def Anchors (slots : List (Slot (Forest NodeKind))) (position : Nat) (row : List (Mark Factory)) :
    Prop :=
  ∀ offset, anchorAt slots (position + offset) = row[offset]?.bind viewOfMark

theorem Anchors.head {slots : List (Slot (Forest NodeKind))} {position : Nat} {mark : Mark Factory}
    {row : List (Mark Factory)} (anchors : Anchors slots position (mark :: row)) :
    anchorAt slots position = viewOfMark mark :=
  anchors 0

theorem Anchors.tail {slots : List (Slot (Forest NodeKind))} {position : Nat} {mark : Mark Factory}
    {row : List (Mark Factory)} (anchors : Anchors slots position (mark :: row)) :
    Anchors slots (position + 1) row := by
  intro offset
  rw [Nat.add_assoc, Nat.add_comm 1]
  exact anchors (offset + 1)

end Factory

namespace Setup

variable {setup : Setup}

def Expands (setup : Setup) (_ : List DirectiveRef) (source : Forest NodeKind) (factory : Factory) :
    Prop :=
  factory.expand = setup.dissolve source

section walk
variable {compiles : List DirectiveRef → Forest NodeKind → Factory → Prop}
  {viewed : ComponentSource → Factory → Prop}

theorem length_bindersFrom {origins : Forest Origin} {marks : Forest (Mark Factory)}
    (aligned : Forest.Aligned (setup.MarkFits compiles viewed) origins marks)
    (bare : origins.Bare Origin.isElement) (level : Nat) :
    (Mark.bindersFrom level marks).length = (marks.map Mark.kind).elementCount := by
  have elements : (NodeKind.isElement ∘ setup.kindOf) = Origin.isElement :=
    funext setup.isElement_kindOf
  rw [← (bindersFrom_readOff aligned bare level).length_eq,
    ← aligned.map_eq fun _ _ fits => MarkFits.kind_eq fits, Forest.elementCount,
    Forest.preorder_map, List.filter_map, List.length_map, elements,
    ← Forest.map_value_sites level, List.filter_map, List.length_map]
  rfl

section step
variable {binders : List (ElementBinder (Forest NodeKind))} {slots : List (Slot (Forest NodeKind))}
  {position index level : Nat} {kind : NodeKind} {mark : Mark Factory}
  {belowMarks restMarks : Forest (Mark Factory)} {rest : Forest NodeKind}
  (anchors : Factory.Anchors slots position (mark :: restMarks.roots))
  (covers : Factory.Covers binders index (Mark.bindersFrom level (.cons mark belowMarks restMarks)))
  (expandedRest : ∀ {index : Nat}, Factory.Covers binders index (Mark.bindersFrom level restMarks) →
    Factory.expandRow binders slots (position + 1) index (restMarks.map Mark.kind) = rest)
include anchors covers expandedRest

theorem expandRow_kept (fits : setup.MarkFits compiles viewed (.kept kind) mark)
    {below : Forest NodeKind}
    (bottom : kind.isElement = false → belowMarks = .nil ∧ below = .nil)
    (counted : (Mark.bindersFrom (level + 1) belowMarks).length =
      (belowMarks.map Mark.kind).elementCount)
    (expanded : Factory.Covers binders (index + 1) (Mark.bindersFrom (level + 1) belowMarks) →
      Factory.expandRow binders ((Mark.slotsFrom 0 belowMarks).map (·.map Factory.expand)) 0
        (index + 1) (belowMarks.map Mark.kind) = below) :
    Factory.expandRow binders slots position index
        ((Forest.cons mark belowMarks restMarks).map Mark.kind) = .cons kind below rest := by
  have element {decorators : List DirectiveRef} {role : Role Factory}
      (isElement : kind.isElement = true) (marked : mark = .element kind decorators role)
      (held : ∀ binding, role.map Factory.expand ≠ .template binding) :
      Factory.expandRow binders slots position index
        ((Forest.cons mark belowMarks restMarks).map Mark.kind) = .cons kind below rest := by
    subst marked
    obtain ⟨roleAt, slotsAt⟩ := covers.head
    rw [Forest.map, Mark.kind,
      Factory.expandRow_element isElement anchors.head (roleAt ▸ held), slotsAt,
      expanded covers.tail.left, ← counted, expandedRest covers.tail.right]
  have other (leaf : kind.isElement = false) (unanchored : Factory.viewOfMark mark = none)
      (marked : mark.kind = kind)
      (uncounted : Mark.bindersFrom level (.cons mark belowMarks restMarks) =
        Mark.bindersFrom level restMarks) :
      Factory.expandRow binders slots position index
        ((Forest.cons mark belowMarks restMarks).map Mark.kind) = .cons kind below rest := by
    rw [uncounted] at covers
    obtain ⟨rfl, rfl⟩ := bottom leaf
    rw [Forest.map, marked, Forest.map,
      Factory.expandRow_leaf leaf (anchors.head.trans unanchored), expandedRest covers]
  cases fits with
  | decorated isElement => exact element isElement rfl (by simp [Role.map])
  | component isElement => exact element isElement rfl (by simp [Role.map])
  | text => exact other rfl rfl rfl rfl
  | unbound leaf => exact other leaf rfl rfl rfl

theorem expandRow_emptied {content : Forest NodeKind}
    (fits : setup.MarkFits setup.Expands viewed (.emptied kind content) mark)
    (inside : belowMarks = .leaf (.unbound setup.anchor)) :
    Factory.expandRow binders slots position index
        ((Forest.cons mark belowMarks restMarks).map Mark.kind) =
      .cons kind (setup.dissolve content) rest := by
  subst inside
  cases fits with
  | emptied isElement _ expands =>
      obtain ⟨roleAt, _⟩ := covers.head
      rw [Forest.map, Mark.kind, Forest.map, Mark.kind, Forest.map,
        Factory.expandRow_template isElement rfl anchors.head roleAt, expandedRest covers.tail,
        ← expands]
      rfl

theorem expandRow_instead {content : Forest NodeKind}
    (fits : setup.MarkFits setup.Expands viewed (.instead kind content) mark)
    (empty : belowMarks = .nil) :
    Factory.expandRow binders slots position index
        ((Forest.cons mark belowMarks restMarks).map Mark.kind) =
      setup.dissolve content ++ rest := by
  subst empty
  cases fits with
  | instead _ expands =>
      rw [Forest.map, Mark.kind, Forest.map, Factory.expandRow_anchor rfl anchors.head,
        expandedRest covers, ← expands]
      rfl

end step

/-- The expansion of a marked row is its source with the replaced elements dissolved. -/
theorem expandRow_eq {source : Forest NodeKind} (bare : source.Bare NodeKind.isElement)
    {binders : List (ElementBinder (Forest NodeKind))} {slots : List (Slot (Forest NodeKind))}
    {position index level : Nat} {marks : Forest (Mark Factory)}
    (aligned : Forest.Aligned (setup.MarkFits setup.Expands viewed) (setup.origins source) marks)
    (anchors : Factory.Anchors slots position marks.roots)
    (covers : Factory.Covers binders index (Mark.bindersFrom level marks)) :
    Factory.expandRow binders slots position index (marks.map Mark.kind) =
      setup.dissolve source := by
  induction source generalizing slots position index level marks with
  | nil =>
      cases aligned
      rfl
  | cons kind below rest inner outer =>
      obtain ⟨bottom, bareBelow, bareRest⟩ := bare
      rw [origins] at aligned
      cases claimed : setup.template? kind with
      | none =>
          have left : setup.isReplaced kind = false := by rw [isReplaced, claimed]; rfl
          rw [dissolve_left left]
          simp only [claimed, Forest.tree_append] at aligned
          cases aligned with
          | @cons _ _ _ _ belowMarks _ fits belowAligned restAligned =>
              refine expandRow_kept anchors covers (outer bareRest restAligned anchors.tail) fits ?_
                (length_bindersFrom belowAligned (setup.bare_origins bareBelow) _)
                (inner bareBelow belowAligned (Factory.anchorAt_slotsFrom belowMarks 0))
              -- Only elements have content, so nothing is lost below other nodes.
              intro leaf
              obtain rfl := bottom leaf
              cases belowAligned
              exact ⟨rfl, rfl⟩
      | some directive =>
          simp only [claimed] at aligned
          cases tag : setup.isTemplateElement kind with
          | true =>
              have replaced : setup.isReplaced kind = true := by rw [isReplaced, claimed, tag]; rfl
              rw [dissolve_replaced replaced]
              simp only [tag, if_true, Forest.tree_append] at aligned
              cases aligned with
              | cons fits nothing restAligned =>
                  cases nothing
                  exact expandRow_instead anchors covers
                    (outer bareRest restAligned anchors.tail) fits rfl
          | false =>
              have left : setup.isReplaced kind = false := by rw [isReplaced, claimed, tag]; rfl
              rw [dissolve_left left]
              simp only [tag] at aligned
              cases aligned with
              | cons fits inside restAligned =>
                  cases inside with
                  | cons anchor nothing none =>
                      cases nothing
                      cases none
                      cases anchor
                      exact expandRow_emptied anchors covers
                        (outer bareRest restAligned anchors.tail) fits rfl

theorem closed_expands : setup.Closed setup.Expands viewed := by
  intro decorators source marks bare aligned
  rw [Expands, Factory.ofMarks, Factory.expand_mk]
  exact expandRow_eq bare aligned (Factory.anchorAt_slotsFrom marks 0)
    (Factory.covers_binders decorators marks)

end walk

end Setup

namespace Compiler

variable {compiler : Compiler}

/-- No node of the source gets lost, doubled or out of order: putting the views of the template
directives back gives the source, without the template elements that anchors replaced. -/
def Lossless (compiler : Compiler) (source : Forest NodeKind) (factory : Factory) : Prop :=
  factory.expand = compiler.setup.dissolve source ∧
    factory.expand.preorder = source.preorder.filter fun kind => !compiler.setup.isReplaced kind

theorem viewsSound_any (compiler : Compiler) :
    compiler.setup.ViewsSound (fun _ _ => True) (fun _ => True) compiler.viewOf where
  preserves := fun _ directive source _ => .any (compiler.viewOf directive source)
  sound := fun _ _ _ _ _ _ _ _ _ => trivial
  report := fun _ _ _ => trivial

theorem compile_lossless {doc : Document} {nodes : List NodeId} (wellFormed : doc.WellFormed)
    (apart : doc.Apart nodes) (fragmentFree : ∀ kind ∈ (doc.kinds nodes).preorder, kind ≠ .fragment)
    {compiled : Compiled} (success : (compiler.compile doc nodes).1.outcome = .ok compiled) :
    compiler.Lossless (doc.kinds nodes)
      (.mk ((compiler.compile doc nodes).2.kinds compiled.nodes) compiled.binders) := by
  obtain ⟨layout, marks, result⟩ := result_of_compile Setup.closed_expands
    compiler.viewsSound_any trivial wellFormed apart fragmentFree success
  have expands : (Factory.ofMarks [] marks).expand = compiler.setup.dissolve (doc.kinds nodes) :=
    Setup.closed_expands [] _ marks result.bare result.aligned
  rw [result.factory_eq, Lossless, expands]
  exact ⟨rfl, compiler.setup.preorder_dissolve _⟩

theorem compile_lossless_paragraph : ∃ compiled,
    ((Compiler.new conditionals).compile paragraph [0]).1.outcome = .ok compiled ∧
      (Compiler.new conditionals).Lossless (paragraph.kinds [0])
        (.mk (((Compiler.new conditionals).compile paragraph [0]).2.kinds compiled.nodes)
          compiled.binders) := by
  obtain ⟨compiled, success⟩ := compiled_paragraph
  exact ⟨compiled, success, compile_lossless wellFormed_paragraph (List.pairwise_singleton _ _)
    fragmentFree_paragraph success⟩

end Compiler

end ViewTemplates
