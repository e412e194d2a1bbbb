import Mathlib.Data.List.Perm.Subperm
import ViewTemplates.Proofs.Compiler.Expansion
import ViewTemplates.Proofs.Compiler.Faults
import ViewTemplates.Proofs.Document.Graft

/-!
What a compilation leaves as it was. Elsewhere in the document, and above and below what is claimed,
nothing changes: a claimed element loses its content and gets a comment, inside it or in its place.
-/

namespace ViewTemplates

open Document

namespace Setup

variable {setup : Setup}

/-- What stands in the place of a node: the anchor of a template element, or the node itself. -/
def standIn (setup : Setup) (source : Forest (NodeId × NodeKind)) (anchorOf : NodeId → NodeId)
    (node : NodeId) : NodeId :=
  if node ∈ source.idsOf setup.isReplaced then anchorOf node else node

theorem standIn_of_notMem {source : Forest (NodeId × NodeKind)} {anchorOf : NodeId → NodeId}
    {node : NodeId} (other : node ∉ source.idsOf setup.isReplaced) :
    setup.standIn source anchorOf node = node := if_neg other

theorem mem_claimed_of_mem_replaced {source : Forest (NodeId × NodeKind)} {node : NodeId}
    (member : node ∈ source.idsOf setup.isReplaced) : node ∈ source.idsOf setup.isClaimed := by
  obtain ⟨entry, listed, rfl⟩ := List.mem_map.mp member
  obtain ⟨inside, replaced⟩ := List.mem_filter.mp listed
  exact List.mem_map_of_mem (List.mem_filter.mpr ⟨inside, isClaimed_of_isReplaced replaced⟩)

/-- Every claimed element of the source has an anchor of its own among the new nodes, and these are
all that is new. Old nodes have the children that they had, or stand-ins for them, but claimed
elements have lost them. -/
structure Framed (setup : Setup) (doc next : Document) (source : Forest (NodeId × NodeKind))
    (anchorOf : NodeId → NodeId) : Prop where
  wellFormed : next.WellFormed
  size : next.size = doc.size + (source.idsOf setup.isClaimed).length
  anchors : ((source.idsOf setup.isClaimed).map anchorOf).Perm
    (List.range' doc.size (source.idsOf setup.isClaimed).length)
  kind : ∀ node < doc.size, next.kind node = doc.kind node
  anchored : ∀ node ∈ source.idsOf setup.isClaimed,
    next.kind (anchorOf node) = setup.anchor ∧ next.children (anchorOf node) = []
  children : ∀ node < doc.size, next.children node =
    if node ∈ source.idsOf setup.isReplaced then []
    else if node ∈ source.idsOf setup.isClaimed then [anchorOf node]
    else (doc.children node).map (setup.standIn source anchorOf)

section listed
variable {doc next : Document} {source : Forest (NodeId × NodeKind)} {anchorOf : NodeId → NodeId}
  (known : ∀ entry ∈ source.preorder, entry.1 < doc.size ∧ doc.kind entry.1 = entry.2)

include known

theorem mem_replaced_iff {node : NodeId} : node ∈ source.idsOf setup.isReplaced ↔
    node ∈ source.idsOf setup.isClaimed ∧ setup.isReplaced (doc.kind node) = true := by
  constructor
  · intro member
    refine ⟨mem_claimed_of_mem_replaced member, ?_⟩
    obtain ⟨entry, listed, rfl⟩ := List.mem_map.mp member
    obtain ⟨inside, replaced⟩ := List.mem_filter.mp listed
    rwa [(known entry inside).2]
  · rintro ⟨member, replaced⟩
    obtain ⟨entry, listed, rfl⟩ := List.mem_map.mp member
    obtain ⟨inside, -⟩ := List.mem_filter.mp listed
    rw [(known entry inside).2] at replaced
    exact List.mem_map_of_mem (List.mem_filter.mpr ⟨inside, replaced⟩)

theorem standIn_eq : setup.standIn source anchorOf =
    setup.standInAmong doc (source.idsOf setup.isClaimed) anchorOf := by
  funext node
  simp only [standIn, standInAmong, mem_replaced_iff known]

/-- The changes to the child lists, said of the replaced elements first. -/
theorem children_eq_of_known {node : NodeId} : (if node ∈ source.idsOf setup.isReplaced then []
      else if node ∈ source.idsOf setup.isClaimed then [anchorOf node]
      else (doc.children node).map (setup.standIn source anchorOf)) =
    if node ∈ source.idsOf setup.isClaimed then
      if setup.isReplaced (doc.kind node) then [] else [anchorOf node]
    else (doc.children node).map
      (setup.standInAmong doc (source.idsOf setup.isClaimed) anchorOf) := by
  rw [standIn_eq known]
  simp only [mem_replaced_iff known]
  split
  next both => rw [if_pos both.1, if_pos both.2]
  next other =>
    split
    next member => rw [if_neg fun replaced => other ⟨member, replaced⟩]
    next => rfl

/-- The claimed elements of a source were extracted, and each of them once. -/
theorem Extracted.framed (nodup : source.ids.Nodup)
    (extracted : setup.Extracted doc next (source.idsOf setup.isClaimed) [] anchorOf) :
    setup.Framed doc next source anchorOf where
  wellFormed := extracted.wellFormed
  size := extracted.grown
  anchors := by
    have distinct : ((source.idsOf setup.isClaimed).map anchorOf).Nodup :=
      ((source.idsOf_sublist _).nodup nodup).map_on extracted.injective
    have within : (source.idsOf setup.isClaimed).map anchorOf ⊆
        List.range' doc.size (source.idsOf setup.isClaimed).length := by
      intro anchor member
      obtain ⟨node, claimed, rfl⟩ := List.mem_map.mp member
      rw [List.mem_range'_1, ← extracted.grown]
      exact extracted.anchors node claimed
    refine (List.subperm_of_subset distinct within).perm_of_length_le ?_
    simp
  kind := extracted.kind
  anchored := fun node claimed =>
    extracted.new _ (extracted.anchors node claimed).1 (extracted.anchors node claimed).2
  children := by
    intro node old
    rw [extracted.children node old, if_neg List.not_mem_nil, children_eq_of_known known]

theorem Framed.extracted (framed : setup.Framed doc next source anchorOf) :
    setup.Extracted doc next (source.idsOf setup.isClaimed) [] anchorOf where
  wellFormed := framed.wellFormed
  grown := framed.size
  kind := framed.kind
  claimed := by
    rintro node (member | member)
    · obtain ⟨entry, listed, rfl⟩ := List.mem_map.mp member
      obtain ⟨inside, claim⟩ := List.mem_filter.mp listed
      obtain ⟨old, kind⟩ := known entry inside
      exact ⟨old, kind ▸ claim⟩
    · contradiction
  anchors := by
    intro node claimed
    have member := framed.anchors.subset (List.mem_map_of_mem claimed)
    rw [List.mem_range'_1, ← framed.size] at member
    exact member
  injective := fun _ member _ again equal =>
    List.inj_on_of_nodup_map (framed.anchors.nodup_iff.mpr List.nodup_range') member again equal
  new := by
    intro node new bound
    have listed : node ∈ List.range' doc.size (source.idsOf setup.isClaimed).length := by
      rw [List.mem_range'_1, ← framed.size]
      exact ⟨new, bound⟩
    obtain ⟨owner, claimed, rfl⟩ := List.mem_map.mp (framed.anchors.symm.subset listed)
    exact framed.anchored owner claimed
  children := by
    intro node old
    rw [framed.children node old, if_neg List.not_mem_nil, children_eq_of_known known]

theorem Framed.parent?_eq (framed : setup.Framed doc next source anchorOf)
    (wellFormed : doc.WellFormed) {node : NodeId} (old : node < doc.size) :
    next.parent? node =
      if node ∈ source.idsOf setup.isReplaced then none
      else (doc.parent? node).filter (· ∉ source.idsOf setup.isClaimed) := by
  rw [(framed.extracted known).parent?_eq wellFormed old]
  simp [mem_replaced_iff known]

end listed

section edits
variable {source : Forest (NodeId × NodeKind)}

/-- Without claims there is nothing to change. -/
theorem edits_eq_nil (unclaimed : source.idsOf setup.isClaimed = []) : setup.edits source = [] := by
  induction source with
  | nil => rfl
  | cons entry below rest inner outer =>
      rw [← Forest.tree_append, Forest.idsOf_append, Forest.idsOf_tree] at unclaimed
      obtain ⟨own, beside⟩ := List.append_eq_nil_iff.mp unclaimed
      split at own
      next => cases own
      next none =>
        rw [isClaimed, Option.not_isSome_iff_eq_none] at none
        rw [edits_cons, edits_tree, none, outer beside]
        simp [inner own]

/-- A source that was marked has no conflicts, nor has the content of its claimed elements. -/
theorem closed_unambiguous {viewed : ComponentSource → Factory → Prop} :
    setup.Closed (fun _ source _ => ∀ kind ∈ source.preorder, (setup.claims kind).length ≤ 1)
      viewed := by
  intro _ source marks bare aligned
  induction source generalizing marks with
  | nil => nofun
  | cons kind below rest inner outer =>
      obtain ⟨-, bareBelow, bareRest⟩ := bare
      rw [origins] at aligned
      rw [Forest.forall_mem_preorder_cons]
      cases claimed : setup.template? kind with
      | none =>
          simp only [claimed, Forest.tree_append] at aligned
          cases aligned with
          | cons fits belowAligned restAligned =>
              refine ⟨?_, inner _ bareBelow belowAligned, outer _ bareRest restAligned⟩
              cases fits with
              | decorated _ claims => simp [claims]
              | component _ claims _ => simp [claims]
              | text _ => exact Nat.zero_le 1
              | unbound leaf _ => simp [claims_of_not_isElement setup leaf]
      | some directive =>
          simp only [claimed] at aligned
          cases tag : setup.isTemplateElement kind with
          | true =>
              simp only [tag, if_true, Forest.tree_append] at aligned
              cases aligned with
              | cons fits _ restAligned =>
                  cases fits with
                  | instead claims content =>
                      exact ⟨by simp [claims], content, outer _ bareRest restAligned⟩
          | false =>
              simp only [tag] at aligned
              cases aligned with
              | cons fits _ restAligned =>
                  cases fits with
                  | emptied _ claims content =>
                      exact ⟨by simp [claims], content, outer _ bareRest restAligned⟩

end edits

/-- What a compilation of nodes changes in a document, the places of the nodes being taken by the
given ones. -/
structure Confined (setup : Setup) (doc next : Document) (nodes places : List NodeId)
    (anchorOf : NodeId → NodeId) : Prop where
  framed : setup.Framed doc next (doc.forest nodes) anchorOf
  claims : ∀ kind ∈ (doc.kinds nodes).preorder, ∀ directive,
    .template directive ∈ setup.claims kind → setup.isClaimed kind = true
  freed : ∀ node ∈ (doc.forest nodes).idsOf setup.isClaimed, ∀ child ∈ doc.children node,
    next.parent? child = none
  removed : ∀ node ∈ (doc.forest nodes).idsOf setup.isReplaced, next.parent? node = none
  stays : ∀ node < doc.size, node ∉ (doc.forest nodes).idsOf setup.isReplaced →
    (∀ owner ∈ (doc.forest nodes).idsOf setup.isClaimed, node ∉ doc.children owner) →
    next.parent? node = doc.parent? node
  placed : places = nodes.map (setup.standIn (doc.forest nodes) anchorOf)
  unchanged : (doc.forest nodes).idsOf setup.isClaimed = [] → next = doc ∧ places = nodes

theorem Framed.confined {doc next : Document} {nodes places : List NodeId}
    {anchorOf : NodeId → NodeId} (framed : setup.Framed doc next (doc.forest nodes) anchorOf)
    (wellFormed : doc.WellFormed) (used : ∀ node ∈ (doc.forest nodes).ids, node < doc.size)
    (unambiguous : ∀ kind ∈ (doc.kinds nodes).preorder, (setup.claims kind).length ≤ 1)
    (placed : places = nodes.map (setup.standIn (doc.forest nodes) anchorOf))
    (made : next = setup.edited doc (setup.edits (doc.forest nodes))) :
    setup.Confined doc next nodes places anchorOf := by
  have known : ∀ entry ∈ (doc.forest nodes).preorder,
      entry.1 < doc.size ∧ doc.kind entry.1 = entry.2 := fun entry member =>
    ⟨used entry.1 (List.mem_map_of_mem member),
      (wellFormed.holds_forest nodes).1.kind_of_mem member⟩
  constructor
  case framed => exact framed
  case claims =>
    intro kind member directive claim
    have only := claims_of_mem claim (unambiguous kind member)
    simp [isClaimed, template?, only]
  case freed =>
    intro node claimed child inside
    have attached := wellFormed.parent_of_mem inside
    rw [framed.parent?_eq known wellFormed (wellFormed.child_lt_size inside), attached]
    split
    · rfl
    · simp [claimed]
  case removed =>
    intro node replaced
    rw [framed.parent?_eq known wellFormed (used node (Forest.mem_ids_of_mem_idsOf replaced)),
      if_pos replaced]
  case stays =>
    intro node bound left unclaimed
    rw [framed.parent?_eq known wellFormed bound, if_neg left]
    cases attached : doc.parent? node with
    | none => rfl
    | some owner =>
        have spared : owner ∉ (doc.forest nodes).idsOf setup.isClaimed :=
          fun claimed => unclaimed owner claimed (wellFormed.mem_of_parent attached)
        simp [spared]
  case placed => exact placed
  case unchanged =>
    intro unclaimed
    constructor
    · rw [made, edits_eq_nil unclaimed]
      rfl
    · rw [placed]
      apply map_of_fixed
      intro node _
      apply standIn_of_notMem
      intro replaced
      have claimed := mem_claimed_of_mem_replaced replaced
      rw [unclaimed] at claimed
      cases claimed

end Setup

namespace Compiler

variable {compiler : Compiler}

theorem framed_of_compileEach {viewed : ComponentSource → Factory → Prop}
    {compiles : List DirectiveRef → Forest NodeKind → Factory → Prop} {keeps : Progress → Prop}
    (closed : compiler.setup.Closed compiles viewed)
    (views : compiler.setup.ViewsSound viewed keeps compiler.viewOf) {site last : Site}
    {source : Forest (NodeId × NodeKind)} {places : List NodeId} {marks : Forest (Mark Factory)}
    (shows : Setup.Shows site.doc source)
    (bare : (source.map Prod.snd).Bare NodeKind.isElement) (kept : keeps site.progress)
    (run : compiler.compileEach source.tops site = .ok (places, marks) last) :
    last.doc = compiler.setup.edited site.doc (compiler.setup.edits source) ∧
      ∃ anchorOf, compiler.setup.Framed site.doc last.doc source anchorOf ∧
        places = source.tops.map (compiler.setup.standIn source anchorOf) := by
  obtain ⟨anchorOf, ⟨extracted, placed⟩, edited, -⟩ :=
    fits_of_compileEach closed views shows bare kept run
  have known := shows.listed.known
  rw [Forest.reached_of_bare bare] at extracted placed
  rw [← Setup.standIn_eq known] at placed
  exact ⟨edited, anchorOf, extracted.framed known shows.nodup, placed⟩

/-- A compilation changes nothing but what it extracts: an element that a template directive claims
loses its content and gets a new comment, inside it or in its place. -/
theorem compile_confined {doc : Document} {nodes : List NodeId} (wellFormed : doc.WellFormed)
    (apart : doc.Apart nodes) (fragmentFree : ∀ kind ∈ (doc.kinds nodes).preorder, kind ≠ .fragment)
    {compiled : Compiled} (success : (compiler.compile doc nodes).1.outcome = .ok compiled) :
    ∃ anchorOf, compiler.setup.Confined doc (compiler.compile doc nodes).2 nodes compiled.nodes
      anchorOf := by
  obtain ⟨holds, tops⟩ := wellFormed.holds_forest nodes
  have shows := shows_forest wellFormed apart fragmentFree
  -- Of the factories only this is needed: what they were made from has no conflicts.
  have closed : compiler.setup.Closed _ fun _ _ => True := Setup.closed_unambiguous
  obtain ⟨layout, marks, result⟩ := result_of_compile closed compiler.viewsSound_any trivial
    wellFormed apart fragmentFree success
  obtain ⟨_, site, walked, last, -⟩ := compile_eq_ok success
  rw [← tops] at walked
  obtain ⟨edited, anchorOf, framed, placed⟩ := framed_of_compileEach closed
    compiler.viewsSound_any shows (holds.bare wellFormed fragmentFree) trivial walked
  rw [tops] at placed
  rw [last]
  exact ⟨anchorOf, framed.confined wellFormed shows.used
    (closed [] _ marks result.bare result.aligned) placed edited⟩

/-! A claimed template element in an element, and a claimed paragraph in its content. -/

def nestedClaims : Forest NodeKind :=
  .tree (.element "div" []) (.tree (.element "template" [("if", "")])
    (.tree (.element "p" [("if", "")]) (.leaf (.text "a"))))

theorem bare_nestedClaims : nestedClaims.Bare NodeKind.isContainer := by
  simp [nestedClaims, Forest.Bare, NodeKind.isContainer]

def nestedDocument : Document := (Document.empty.graft none nestedClaims).2

theorem wellFormed_nestedDocument : nestedDocument.WellFormed :=
  WellFormed.empty.graft nestedClaims bare_nestedClaims

theorem fragmentFree_nestedDocument :
    ∀ kind ∈ (nestedDocument.kinds [0]).preorder, kind ≠ .fragment := by
  have tops : (Document.empty.graft none nestedClaims).1 = [0] := by decide
  rw [nestedDocument, ← tops, WellFormed.empty.kinds_graft nestedClaims bare_nestedClaims]
  decide

theorem compiled_nestedDocument : ∃ compiled,
    ((Compiler.new conditionals).compile nestedDocument [0]).1.outcome = .ok compiled :=
  exists_of_isOk (by decide +kernel)

theorem compile_confined_nestedDocument : ∃ compiled,
    ((Compiler.new conditionals).compile nestedDocument [0]).1.outcome = .ok compiled ∧
      ∃ anchorOf, (Compiler.new conditionals).setup.Confined nestedDocument
        ((Compiler.new conditionals).compile nestedDocument [0]).2 [0] compiled.nodes anchorOf := by
  obtain ⟨compiled, success⟩ := compiled_nestedDocument
  exact ⟨compiled, success, compile_confined wellFormed_nestedDocument
    (List.pairwise_singleton _ _) fragmentFree_nestedDocument success⟩

-- The anchor of the template element stands in the `div`, that of the paragraph in the paragraph.
example :
    let compiled := ((Compiler.new conditionals).compile nestedDocument [0]).2
    (compiled.children 0, compiled.children 1, compiled.children 2) = ([5], [], [4]) := by
  decide +kernel

end Compiler

end ViewTemplates
