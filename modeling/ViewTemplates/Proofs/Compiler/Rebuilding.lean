import Mathlib.Data.List.Nodup
import ViewTemplates.Proofs.Compiler.Extractions

/-!
What stands in a document after extractions: the template of the source, and the nodes that the
compiler does not visit as they were.
-/

namespace ViewTemplates

open Document

namespace Forest

theorem mem_reached_or_unreached {source : Forest (NodeId × NodeKind)} {entry : NodeId × NodeKind}
    (member : entry ∈ source.preorder) :
    entry ∈ source.reached.preorder ∨ entry ∈ source.unreached :=
  List.mem_append.mp ((perm_pruned source).mem_iff.mp member)

theorem notMem_unreached {source : Forest (NodeId × NodeKind)} (nodup : source.ids.Nodup)
    {node : NodeId} (member : node ∈ source.reached.ids) :
    node ∉ source.unreached.map Prod.fst := by
  have parts : (source.reached.ids ++ source.unreached.map Prod.fst).Nodup := by
    rw [ids, ← List.map_append]
    exact ((perm_pruned source).map Prod.fst).nodup nodup
  intro other
  exact (List.nodup_append.mp parts).2.2 node member node other rfl

end Forest

namespace Setup

variable {setup : Setup} {anchorOf : NodeId → NodeId}

/-- The template that a source becomes, where the anchor of each claimed element is the given one. -/
def placed (setup : Setup) (anchorOf : NodeId → NodeId) :
    Forest (NodeId × NodeKind) → Forest (NodeId × Origin)
  | .nil => .nil
  | .cons (node, kind) below rest =>
      if setup.isReplaced kind then
        .cons (anchorOf node, .instead kind (below.map Prod.snd)) .nil (setup.placed anchorOf rest)
      else if setup.isClaimed kind then
        .cons (node, .emptied kind (below.map Prod.snd)) (.leaf (anchorOf node, .inside))
          (setup.placed anchorOf rest)
      else .cons (node, .kept kind) (setup.placed anchorOf below) (setup.placed anchorOf rest)

/-- The nodes of that template, and those that the compiler does not visit as they were. -/
def rebuilt (setup : Setup) (anchorOf : NodeId → NodeId) :
    Forest (NodeId × NodeKind) → Forest (NodeId × NodeKind)
  | .nil => .nil
  | .cons (node, kind) below rest =>
      if setup.isReplaced kind then
        .cons (anchorOf node, setup.anchor) .nil (setup.rebuilt anchorOf rest)
      else if setup.isClaimed kind then
        .cons (node, kind) (.leaf (anchorOf node, setup.anchor)) (setup.rebuilt anchorOf rest)
      else
        .cons (node, kind)
          (match kind.isElement with
            | true => setup.rebuilt anchorOf below
            | false => below)
          (setup.rebuilt anchorOf rest)

theorem isElement_of_isClaimed {kind : NodeKind} (claimed : setup.isClaimed kind = true) :
    kind.isElement = true := by
  cases leaf : kind.isElement with
  | true => rfl
  | false =>
      rw [isClaimed, template?, claims_of_not_isElement setup leaf] at claimed
      contradiction

/-- What becomes of a node: an anchor takes its place, or is put into it; or the compiler goes on
below it, or it does not. -/
inductive Treatment (setup : Setup) (kind : NodeKind) : Prop where
  | replaced : setup.isReplaced kind = true → setup.isClaimed kind = true →
      kind.isElement = true → Treatment setup kind
  | emptied : setup.isReplaced kind = false → setup.isClaimed kind = true →
      kind.isElement = true → Treatment setup kind
  | visited : setup.isReplaced kind = false → setup.isClaimed kind = false →
      kind.isElement = true → Treatment setup kind
  | left : setup.isReplaced kind = false → setup.isClaimed kind = false →
      kind.isElement = false → Treatment setup kind

theorem treatment (setup : Setup) (kind : NodeKind) : setup.Treatment kind := by
  cases claimed : setup.isClaimed kind with
  | true =>
      have isElement := isElement_of_isClaimed claimed
      cases replaced : setup.isReplaced kind with
      | true => exact .replaced replaced claimed isElement
      | false => exact .emptied replaced claimed isElement
  | false =>
      have spared : setup.isReplaced kind = false := by
        apply Bool.eq_false_iff.mpr
        intro replaced
        rw [isClaimed_of_isReplaced replaced] at claimed
        contradiction
      cases isElement : kind.isElement with
      | true => exact .visited spared claimed isElement
      | false => exact .left spared claimed isElement

theorem isElement_anchor (setup : Setup) : setup.anchor.isElement = false := rfl

theorem map_snd_placed (source : Forest (NodeId × NodeKind)) :
    (setup.placed anchorOf source).map Prod.snd = setup.origins (source.map Prod.snd) := by
  induction source with
  | nil => rfl
  | cons entry below rest inner outer =>
      obtain ⟨node, kind⟩ := entry
      rw [placed, Forest.map, origins, isReplaced, isClaimed]
      cases setup.template? kind with
      | none => simp [Forest.tree, Forest.map, inner, outer]
      | some directive =>
          cases setup.isTemplateElement kind <;> simp [Forest.tree, Forest.leaf, Forest.map, outer]

theorem reached_rebuilt (source : Forest (NodeId × NodeKind)) :
    (setup.rebuilt anchorOf source).reached =
      (setup.placed anchorOf source.reached).map fun entry => (entry.1, setup.kindOf entry.2) := by
  induction source with
  | nil => rfl
  | cons entry below rest inner outer =>
      obtain ⟨node, kind⟩ := entry
      cases setup.treatment kind <;>
        simp [rebuilt, placed, Forest.reached, Forest.pruned, Forest.leaf, Forest.map, kindOf,
          isElement_anchor, *]

/-- Where the compiler visits every node, the template is all that there is. -/
theorem rebuilt_of_bare {source : Forest (NodeId × NodeKind)}
    (bare : (source.map Prod.snd).Bare NodeKind.isElement) :
    setup.rebuilt anchorOf source =
      (setup.placed anchorOf source).map fun entry => (entry.1, setup.kindOf entry.2) := by
  induction source with
  | nil => rfl
  | cons entry below rest inner outer =>
      obtain ⟨node, kind⟩ := entry
      obtain ⟨bottom, bareBelow, bareRest⟩ := bare
      cases setup.treatment kind with
      | replaced replaced =>
          simp [rebuilt, placed, Forest.map, replaced, outer bareRest, kindOf]
      | emptied spared claimed =>
          simp [rebuilt, placed, Forest.leaf, Forest.map, spared, claimed, outer bareRest, kindOf]
      | visited spared unclaimed isElement =>
          simp [rebuilt, placed, Forest.map, spared, unclaimed, isElement, inner bareBelow,
            outer bareRest, kindOf]
      | left spared unclaimed leaf =>
          cases below with
          | nil => simp [rebuilt, placed, Forest.map, spared, unclaimed, leaf, outer bareRest, kindOf]
          | cons => cases bottom leaf

/-- Of what the compiler does not visit, nothing is new. -/
theorem unreached_rebuilt_sublist (source : Forest (NodeId × NodeKind)) :
    (setup.rebuilt anchorOf source).unreached.Sublist source.unreached := by
  induction source with
  | nil => exact .slnil
  | cons entry below rest inner outer =>
      obtain ⟨node, kind⟩ := entry
      have later := outer.trans (List.sublist_append_right below.unreached rest.unreached)
      cases setup.treatment kind with
      | replaced replaced _ isElement =>
          simpa [rebuilt, Forest.veiled, Forest.preorder, isElement_anchor, replaced,
            isElement] using later
      | emptied spared claimed isElement =>
          simpa [rebuilt, Forest.veiled, Forest.leaf, Forest.preorder, isElement_anchor, spared,
            claimed, isElement] using later
      | visited spared unclaimed isElement =>
          simpa [rebuilt, Forest.veiled, spared, unclaimed, isElement] using inner.append outer
      | left spared unclaimed isElement =>
          simpa [rebuilt, Forest.veiled, spared, unclaimed, isElement] using outer

/-- A node, and its anchor if it has one. -/
def withAnchor (finished : List NodeId) (anchorOf : NodeId → NodeId) (node : NodeId) :
    List NodeId :=
  if node ∈ finished then [node, anchorOf node] else [node]

theorem mem_withAnchor {finished : List NodeId} {node value : NodeId} :
    value ∈ withAnchor finished anchorOf node ↔
      value = node ∨ node ∈ finished ∧ value = anchorOf node := by
  rw [withAnchor]
  split <;> simp [*]

theorem singleton_sublist_withAnchor (finished : List NodeId) (node : NodeId) :
    [node].Sublist (withAnchor finished anchorOf node) := by
  rw [withAnchor]
  split <;> simp

theorem sublist_flatMap_withAnchor (finished row : List NodeId) :
    row.Sublist (row.flatMap (withAnchor finished anchorOf)) := by
  induction row with
  | nil => exact .slnil
  | cons node rest induction =>
      exact (singleton_sublist_withAnchor finished node).append induction

section finished
variable {finished : List NodeId} {source : Forest (NodeId × NodeKind)}

/-- Of a source the finished elements are the claimed ones that are reached. -/
structure Finished (setup : Setup) (finished : List NodeId) (source : Forest (NodeId × NodeKind)) :
    Prop where
  reached : ∀ entry ∈ source.reached.preorder,
    entry.1 ∈ finished ↔ setup.isClaimed entry.2 = true
  unreached : ∀ entry ∈ source.unreached, entry.1 ∉ finished

theorem Finished.of_nodup (nodup : source.ids.Nodup) :
    setup.Finished (source.reached.idsOf setup.isClaimed) source := by
  constructor
  case reached =>
    intro entry member
    constructor
    · intro among
      obtain ⟨other, claimed, same⟩ := List.mem_map.mp among
      obtain ⟨inside, claim⟩ := List.mem_filter.mp claimed
      have whole : source.reached.preorder.Sublist source.preorder :=
        Forest.preorder_pruned_sublist source
      obtain rfl := List.inj_on_of_nodup_map nodup (whole.subset inside) (whole.subset member) same
      exact claim
    · intro claim
      exact List.mem_map_of_mem (List.mem_filter.mpr ⟨member, claim⟩)
  case unreached =>
    intro entry member among
    exact Forest.notMem_unreached nodup (Forest.mem_ids_of_mem_idsOf among)
      (List.mem_map_of_mem member)

namespace Finished

variable {entry : NodeId × NodeKind} {content others : Forest (NodeId × NodeKind)}

theorem rest (marked : setup.Finished finished (.cons entry content others)) :
    setup.Finished finished others where
  reached := fun other member => marked.reached other
    (List.mem_cons_of_mem _ (List.mem_append_right _ member))
  unreached := fun other member => marked.unreached other (List.mem_append_right _ member)

theorem head (marked : setup.Finished finished (.cons entry content others)) :
    entry.1 ∈ finished ↔ setup.isClaimed entry.2 = true :=
  marked.reached entry List.mem_cons_self

theorem below (marked : setup.Finished finished (.cons entry content others))
    (isElement : entry.2.isElement = true) : setup.Finished finished content := by
  obtain ⟨reached, unreached⟩ := marked
  simp only [Forest.pruned, Forest.veiled, isElement] at reached unreached
  constructor
  · exact fun other member =>
      reached other (List.mem_cons_of_mem _ (List.mem_append_left _ member))
  · exact fun other member => unreached other (List.mem_append_left _ member)

theorem left (marked : setup.Finished finished (.cons entry content others))
    (leaf : entry.2.isElement = false) : ∀ node ∈ content.ids, node ∉ finished := by
  have unreached := marked.unreached
  simp only [Forest.veiled, leaf] at unreached
  intro node member
  obtain ⟨other, inside, rfl⟩ := List.mem_map.mp member
  exact unreached other (List.mem_append_left _ inside)

end Finished

theorem ids_rebuilt_sublist (marked : setup.Finished finished source) :
    (setup.rebuilt anchorOf source).ids.Sublist
      (source.ids.flatMap (withAnchor finished anchorOf)) := by
  induction source with
  | nil => exact .slnil
  | cons entry below rest inner outer =>
      obtain ⟨node, kind⟩ := entry
      have later := (outer marked.rest).trans
        (List.sublist_append_right (below.ids.flatMap (withAnchor finished anchorOf)) _)
      rw [Forest.ids_cons, List.flatMap_cons, List.flatMap_append]
      cases setup.treatment kind with
      | replaced replaced claimed _ =>
          rw [rebuilt, if_pos replaced, withAnchor, if_pos (marked.head.mpr claimed)]
          exact (later.cons_cons _).cons _
      | emptied spared claimed _ =>
          rw [rebuilt, if_neg (by simp [spared]), if_pos claimed, withAnchor,
            if_pos (marked.head.mpr claimed)]
          exact (later.cons_cons _).cons_cons _
      | visited spared unclaimed isElement =>
          rw [rebuilt, if_neg (by simp [spared]), if_neg (by simp [unclaimed]), isElement,
            Forest.ids_cons]
          exact (singleton_sublist_withAnchor finished node).append
            ((inner (marked.below isElement)).append (outer marked.rest))
      | left spared unclaimed leaf =>
          rw [rebuilt, if_neg (by simp [spared]), if_neg (by simp [unclaimed]), leaf,
            Forest.ids_cons]
          exact (singleton_sublist_withAnchor finished node).append
            ((sublist_flatMap_withAnchor finished below.ids).append (outer marked.rest))

section extracted
variable {doc next : Document} (extracted : setup.Extracted doc next finished [] anchorOf)
include extracted

theorem nodup_rebuilt (listed : Listed doc source) (marked : setup.Finished finished source) :
    (setup.rebuilt anchorOf source).ids.Nodup := by
  have newer {node other : NodeId} (old : node ∈ source.ids) (member : other ∈ finished) :
      node ≠ anchorOf other :=
    Nat.ne_of_lt (Nat.lt_of_lt_of_le (listed.used node old) (extracted.anchors other member).1)
  apply (ids_rebuilt_sublist marked).nodup
  rw [List.nodup_flatMap]
  constructor
  · intro node old
    rw [withAnchor]
    split
    next member => simpa using newer old member
    next => exact List.nodup_singleton node
  · refine listed.nodup.imp_of_mem fun {node other} old otherOld different value mine theirs => ?_
    rcases mem_withAnchor.mp mine with rfl | ⟨member, rfl⟩
    · rcases mem_withAnchor.mp theirs with same | ⟨again, same⟩
      · exact different same
      · exact newer old again same
    · rcases mem_withAnchor.mp theirs with same | ⟨again, same⟩
      · exact newer otherOld member same.symm
      · exact different (extracted.injective node member other again same)

/-- The forests of other nodes are as they were. -/
theorem Extracted.holds_of_spared {forest : Forest (NodeId × NodeKind)} (holds : doc.Holds forest)
    (used : ∀ node ∈ forest.ids, node < doc.size) (spared : ∀ node ∈ forest.ids, node ∉ finished) :
    next.Holds forest := by
  apply holds.kept
  · exact fun node member => extracted.kind node (used node member)
  · intro node member
    rw [extracted.children node (used node member), if_neg List.not_mem_nil,
      if_neg (spared node member)]
    apply map_of_fixed
    intro child inside
    exact standInAmong_of_notMem (spared child ((holds.children_sublist member).subset inside))

theorem holds_rebuilt (listed : Listed doc source) (marked : setup.Finished finished source)
    (holds : doc.Holds source) :
    next.Holds (setup.rebuilt anchorOf source) ∧
      (setup.rebuilt anchorOf source).tops =
        source.tops.map (setup.standInAmong doc finished anchorOf) := by
  induction source with
  | nil => exact ⟨trivial, rfl⟩
  | cons entry below rest inner outer =>
      obtain ⟨node, kind⟩ := entry
      obtain ⟨used, known⟩ := listed.head
      obtain ⟨-, children, belowHolds, restHolds⟩ := holds
      obtain ⟨holdsRest, topsRest⟩ := outer listed.rest marked.rest restHolds
      have kept : next.kind node = kind := (extracted.kind node used).trans known
      have now := extracted.children node used
      rw [if_neg List.not_mem_nil, children, known] at now
      have tops {place : NodeId} {content : Forest (NodeId × NodeKind)} {top : NodeKind}
          (stands : setup.standInAmong doc finished anchorOf node = place) :
          (Forest.cons (place, top) content (setup.rebuilt anchorOf rest)).tops =
            (Forest.cons (node, kind) below rest).tops.map
              (setup.standInAmong doc finished anchorOf) := by
        rw [← stands, Forest.tops, Forest.roots, List.map_cons, ← Forest.tops, topsRest]
        rfl
      cases setup.treatment kind with
      | replaced replaced claimed _ =>
          have member := marked.head.mpr claimed
          obtain ⟨new, bound⟩ := extracted.anchors node member
          obtain ⟨anchor, none⟩ := extracted.new _ new bound
          rw [rebuilt, if_pos replaced]
          refine ⟨⟨anchor, none, trivial, holdsRest⟩, tops (if_pos ⟨member, ?_⟩)⟩
          rw [known]
          exact replaced
      | emptied spared claimed _ =>
          have member := marked.head.mpr claimed
          obtain ⟨new, bound⟩ := extracted.anchors node member
          obtain ⟨anchor, none⟩ := extracted.new _ new bound
          rw [if_pos member, if_neg (by simp [spared])] at now
          rw [rebuilt, if_neg (by simp [spared]), if_pos claimed]
          refine ⟨⟨kept, now, ⟨anchor, none, trivial, trivial⟩, holdsRest⟩, tops (if_neg ?_)⟩
          rw [known]
          simp [spared]
      | visited spared unclaimed isElement =>
          have absent : node ∉ finished := fun member => by
            simp [marked.head.mp member] at unclaimed
          obtain ⟨holdsBelow, topsBelow⟩ := inner listed.below (marked.below isElement) belowHolds
          rw [if_neg absent, ← topsBelow] at now
          rw [rebuilt, if_neg (by simp [spared]), if_neg (by simp [unclaimed]), isElement]
          exact ⟨⟨kept, now, holdsBelow, holdsRest⟩,
            tops (Extracted.standInAmong_of_notMem absent)⟩
      | left spared unclaimed leaf =>
          have absent : node ∉ finished := fun member => by
            simp [marked.head.mp member] at unclaimed
          have others := marked.left leaf
          rw [if_neg absent, map_of_fixed fun child top => Extracted.standInAmong_of_notMem
            (others child (Forest.tops_subset_ids below top))] at now
          rw [rebuilt, if_neg (by simp [spared]), if_neg (by simp [unclaimed]), leaf]
          have holdsBelow := extracted.holds_of_spared belowHolds listed.below.used others
          exact ⟨⟨kept, now, holdsBelow, holdsRest⟩,
            tops (Extracted.standInAmong_of_notMem absent)⟩

end extracted

end finished

/-! Sources side by side. -/

/-- The source was extracted in place, and the places of its top nodes are taken by the given
ones. -/
structure Relaid (setup : Setup) (doc next : Document) (source : Forest (NodeId × NodeKind))
    (places : List NodeId) (anchorOf : NodeId → NodeId) : Prop where
  extracted : setup.Extracted doc next (source.reached.idsOf setup.isClaimed) [] anchorOf
  placed : places = source.tops.map
    (setup.standInAmong doc (source.reached.idsOf setup.isClaimed) anchorOf)

theorem notMem_finished_of_rest {doc : Document} {source rest : Forest (NodeId × NodeKind)}
    (listed : Listed doc (source ++ rest)) {node : NodeId} (member : node ∈ rest.ids) :
    node ∉ source.reached.idsOf setup.isClaimed := fun early => listed.disjoint
  ((Forest.ids_reached_sublist _).subset (Forest.mem_ids_of_mem_idsOf early)) member

namespace Relaid

variable {doc middle next : Document} {source rest : Forest (NodeId × NodeKind)}
  {places later : List NodeId} {anchorOfRest : NodeId → NodeId}

theorem nil (wellFormed : doc.WellFormed) : setup.Relaid doc doc .nil [] anchorOf :=
  ⟨.refl wellFormed, rfl⟩

/-- The source to the right is as it was. -/
theorem shows_rest (relaid : setup.Relaid doc middle source places anchorOf)
    (shows : Shows doc (source ++ rest)) : Shows middle rest where
  wellFormed := relaid.extracted.wellFormed
  holds := relaid.extracted.holds_of_spared shows.holds.back shows.listed.back.used
    fun _ => notMem_finished_of_rest shows.listed
  used := fun node member => Nat.lt_of_lt_of_le (shows.listed.back.used node member)
    relaid.extracted.size
  nodup := shows.listed.back.nodup

theorem append (first : setup.Relaid doc middle source places anchorOf)
    (second : setup.Relaid middle next rest later anchorOfRest)
    (listed : Listed doc (source ++ rest)) :
    ∃ anchors, setup.Relaid doc next (source ++ rest) (places ++ later) anchors := by
  obtain ⟨whole, stands⟩ := And.intro (first.extracted.trans second.extracted)
    (first.extracted.standInAmong_append second.extracted)
  rw [← Forest.idsOf_append, ← Forest.reached_append] at whole stands
  refine ⟨_, whole, ?_⟩
  rw [← stands, Forest.tops_append, List.map_append, first.placed, second.placed]
  congr 1
  · apply List.map_congr_left
    intro node top
    -- An anchor is new, and another node of the first source is not one of the second.
    have still : setup.standInAmong doc (source.reached.idsOf setup.isClaimed) anchorOf node ∉
        rest.reached.idsOf setup.isClaimed := by
      rw [standInAmong]
      split
      next both =>
        exact (first.extracted.notMem_of_new second.extracted
          (first.extracted.anchors node both.1).1).1
      next =>
        intro member
        exact listed.disjoint (Forest.tops_subset_ids source top)
          ((Forest.ids_reached_sublist _).subset (Forest.mem_ids_of_mem_idsOf member))
    rw [Function.comp_apply, Extracted.standInAmong_of_notMem still]
  · apply List.map_congr_left
    intro node top
    have other : node ∉ source.reached.idsOf setup.isClaimed :=
      notMem_finished_of_rest listed (Forest.tops_subset_ids rest top)
    rw [Function.comp_apply, Extracted.standInAmong_of_notMem other]

/-- What stands in the document then. -/
theorem holds (relaid : setup.Relaid doc next source places anchorOf) (shows : Shows doc source) :
    next.Holds (setup.rebuilt anchorOf source) ∧ (setup.rebuilt anchorOf source).tops = places := by
  rw [relaid.placed]
  exact holds_rebuilt relaid.extracted shows.listed (.of_nodup shows.nodup) shows.holds

theorem nodup (relaid : setup.Relaid doc next source places anchorOf) (shows : Shows doc source) :
    (setup.rebuilt anchorOf source).ids.Nodup :=
  nodup_rebuilt relaid.extracted shows.listed (.of_nodup shows.nodup)

theorem used (relaid : setup.Relaid doc next source places anchorOf) (shows : Shows doc source) :
    ∀ node ∈ places, node < next.size := by
  intro node member
  rw [relaid.placed] at member
  obtain ⟨old, top, rfl⟩ := List.mem_map.mp member
  rw [standInAmong]
  split
  next both => exact (relaid.extracted.anchors old both.1).2
  next =>
    exact Nat.lt_of_lt_of_le (shows.used old (Forest.tops_subset_ids source top))
      relaid.extracted.size

end Relaid

/-- The changes for a tree. The anchor that takes the place of its top node is the last node that
was created. -/
theorem relaid_tree (setup : Setup) {doc : Document} {node : NodeId} {kind : NodeKind}
    {below : Forest (NodeId × NodeKind)} (listed : Listed doc (.tree (node, kind) below)) :
    ∃ anchorOf, setup.Relaid doc
      (setup.edited doc (setup.edits (Forest.tree (node, kind) below).reached))
      (.tree (node, kind) below)
      [if setup.isReplaced kind then
          (setup.edited doc (setup.edits (Forest.tree (node, kind) below).reached)).size - 1
        else node] anchorOf := by
  obtain ⟨content, shape⟩ : ∃ content, (Forest.tree (node, kind) below).reached =
      .tree (node, kind) content := ⟨_, rfl⟩
  have reached := listed.reached
  rw [shape] at reached
  obtain ⟨anchorOf, extracted, last⟩ := setup.extracted_tree reached extracted_edits
  rw [← shape] at extracted last
  refine ⟨anchorOf, extracted, ?_⟩
  have known : doc.kind node = kind := listed.head.2
  change _ = [setup.standInAmong doc _ anchorOf node]
  rw [standInAmong, known, shape, Forest.idsOf_tree]
  cases replaced : setup.isReplaced kind with
  | true =>
      have claimed := isClaimed_of_isReplaced replaced
      rw [if_pos rfl, if_pos claimed, if_pos ⟨List.mem_cons_self, rfl⟩, ← shape, last claimed]
      rfl
  | false => simp

end Setup

end ViewTemplates
