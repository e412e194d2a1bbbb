import Mathlib.Data.List.Basic
import ViewTemplates.Document.Copying
import ViewTemplates.Proofs.Document.Operations

/-!
Deep copies. Copying node by node puts the same records behind the old ones as grafting the subtree
at once, so a copy is the subtree again on new nodes, numbered in document order.
-/

namespace ViewTemplates

namespace Document

/-! Records behind records. -/

section records
variable (front back : List NodeRecord)

theorem create_mk (kind : NodeKind) :
    (mk front.toArray).create kind = mk (front ++ [NodeRecord.mk kind none []]).toArray := by
  rw [create, mk.injEq, List.push_toArray]

theorem setParent_append (record : NodeRecord) (parent : Option NodeId) :
    (mk (front ++ record :: back).toArray).setParent front.length parent =
      mk (front ++ { record with parent } :: back).toArray := by
  rw [setParent, mk.injEq, List.modify_toArray, modify_length]

theorem children_append (record : NodeRecord) :
    (mk (front ++ record :: back).toArray).children front.length = record.children := by
  simp [children]

/-- A node behind another one becomes its last child. -/
theorem pushChild_mk (middle : List NodeRecord) (upper lower : NodeRecord) :
    (mk (front ++ upper :: (middle ++ lower :: back)).toArray).pushChild front.length
        (front ++ upper :: middle).length =
      let children := upper.children ++ [(front ++ upper :: middle).length]
      mk (front ++ { upper with children } ::
        (middle ++ { lower with parent := some front.length } :: back)).toArray := by
  rw [pushChild, children_append, ← List.cons_append, ← List.append_assoc, setParent_append,
    List.append_assoc, List.cons_append, setChildren_append]

end records

/-! Copying node by node. -/

variable {source : Document → Document} {old : List NodeRecord}

/-- The forest is read as it is for as long as the old records stand in front. -/
def Reads (source : Document → Document) (old : List NodeRecord)
    (forest : Forest (NodeId × NodeKind)) : Prop :=
  ∀ all, old <+: all → (source (mk all.toArray)).Holds forest

/-- Copying the top row below a node puts the records of the forest behind all others, and appends
its top row to the children of the node. -/
def CopiesRow (source : Document → Document) (limit : Nat) (old : List NodeRecord)
    (forest : Forest (NodeId × NodeKind)) : Prop :=
  ∀ (front back : List NodeRecord) (upper : NodeRecord), old <+: front →
    let copies := (forest.map Prod.snd).numbered (front ++ upper :: back).length
    forest.tops.foldl
        (fun next child =>
          let (copy, grown) := copyWithin source limit next child
          grown.pushChild front.length copy)
        (mk (front ++ upper :: back).toArray) =
      mk (front ++ { upper with children := upper.children ++ copies.tops } ::
        (back ++ recordsOf (some front.length) copies)).toArray

theorem copyWithin_of_row {limit : Nat} {entry : NodeId × NodeKind}
    {below rest : Forest (NodeId × NodeKind)} (reads : Reads source old (.cons entry below rest))
    (row : CopiesRow source limit old below) {all : List NodeRecord} (starts : old <+: all) :
    (mk all.toArray).copyWithin source (limit + 1) entry.1 =
      (all.length, mk (all ++ recordsOf none ((Forest.tree entry.2
        (below.map Prod.snd)).numbered all.length)).toArray) := by
  obtain ⟨kind, -⟩ := reads all starts
  have longer : old <+: all ++ [NodeRecord.mk entry.2 none []] :=
    starts.trans (List.prefix_append _ _)
  obtain ⟨-, children, -⟩ := reads _ longer
  have copied := row all [] ⟨entry.2, none, []⟩ starts
  rw [copyWithin, size_mk, kind, create_mk]
  dsimp only
  rw [children, copied]
  simp [Forest.numbered, recordsOf]

/-- One more child is one more copy at the end of the children, and its records behind all. -/
theorem copiesRow {limit : Nat} {forest : Forest (NodeId × NodeKind)}
    (reads : Reads source old forest) (enough : forest.preorder.length ≤ limit) :
    CopiesRow source limit old forest := by
  induction forest generalizing limit with
  | nil =>
      intro front back upper _
      simp [Forest.tops, Forest.roots, Forest.map, Forest.numbered, recordsOf]
  | cons entry below rest inner outer =>
      simp only [Forest.preorder, List.length_cons, List.length_append] at enough
      obtain ⟨limit, rfl⟩ : ∃ fewer, limit = fewer + 1 := Nat.exists_eq_add_one.mpr (by omega)
      have readsBelow : Reads source old below := fun all long => (reads all long).2.2.1
      have readsRest : Reads source old rest := fun all long => (reads all long).2.2.2
      intro front back upper starts
      let place := (front ++ upper :: back).length
      let content := (below.map Prod.snd).numbered (place + 1)
      let copy := NodeRecord.mk entry.2 (some front.length) content.tops
      have copied := copyWithin_of_row reads (@inner limit readsBelow (by omega))
        (starts.trans (List.prefix_append front (upper :: back)))
      simp only [Forest.numbered, recordsOf, List.append_nil] at copied
      rw [List.append_assoc, List.cons_append] at copied
      have pushed := pushChild_mk front (recordsOf (some place) content) back upper
        ⟨entry.2, none, content.tops⟩
      have later := @outer (limit + 1) readsRest (by omega) front
        (back ++ copy :: recordsOf (some place) content)
        { upper with children := upper.children ++ [place] } starts
      have behind : (front ++ { upper with children := upper.children ++ [place] } ::
          (back ++ copy :: recordsOf (some place) content)).length =
          place + 1 + (below.map Prod.snd).preorder.length := by
        simp only [place, List.length_append, List.length_cons, length_recordsOf, content,
          Forest.length_numbered]
        omega
      rw [behind] at later
      change List.foldl _ _ (entry.1 :: rest.tops) = _
      simp only [List.foldl_cons, copied]
      rw [pushed, later]
      simp [Forest.numbered, Forest.map, Forest.tops, Forest.roots, recordsOf, place, content, copy]

section copies
variable {doc : Document} {node : NodeId}

/-- Copying a node with its forest grafts that forest. -/
theorem copyWithin_eq_graft {limit : Nat} {entry : NodeId × NodeKind}
    {below : Forest (NodeId × NodeKind)}
    (reads : Reads source doc.records.toList (.tree entry below))
    (enough : (Forest.tree entry below).preorder.length ≤ limit) :
    doc.copyWithin source limit entry.1 =
      (doc.size, (doc.graft none (.tree entry.2 (below.map Prod.snd))).2) := by
  simp only [Forest.preorder, List.length_cons, List.append_nil] at enough
  obtain ⟨limit, rfl⟩ : ∃ fewer, limit = fewer + 1 := Nat.exists_eq_add_one.mpr (by omega)
  have row : CopiesRow source limit doc.records.toList below :=
    copiesRow (fun all long => (reads all long).2.2.1) (by omega)
  rw [graft_eq]
  exact copyWithin_of_row reads row List.prefix_rfl

/-- The subtree of a node in use, with at most as many nodes as there are. -/
theorem WellFormed.exists_tree (wellFormed : doc.WellFormed) (used : node < doc.size) :
    ∃ below, doc.forest [node] = .tree (node, doc.kind node) below ∧
      doc.Holds (.tree (node, doc.kind node) below) ∧
      (Forest.tree (node, doc.kind node) below).preorder.length ≤ doc.size := by
  obtain ⟨holds, tops⟩ := wellFormed.holds_forest [node]
  have forest : doc.forest [node] =
      .tree (node, doc.kind node) (doc.forestWithin doc.size (doc.children node)) := rfl
  have bounded := holds.length_preorder_le wellFormed
    (by rw [tops]; exact List.forall_mem_singleton.mpr used)
  rw [tops, List.length_singleton, Nat.one_mul] at bounded
  exact ⟨_, forest, forest ▸ holds, forest ▸ bounded⟩

theorem kinds_eq {below : Forest (NodeId × NodeKind)}
    (forest : doc.forest [node] = .tree (node, doc.kind node) below) :
    doc.kinds [node] = .tree (doc.kind node) (below.map Prod.snd) := by
  rw [kinds, forest]
  rfl

/-- Importing node by node puts the same nodes into the document as importing the subtree. -/
theorem WellFormed.copyWithin_eq_importNode {source : Document} (wellFormed : source.WellFormed)
    (used : node < source.size) {limit : Nat} (enough : source.size ≤ limit) :
    doc.copyWithin (fun _ => source) limit node = doc.importNode source node := by
  obtain ⟨below, forest, holds, bounded⟩ := wellFormed.exists_tree used
  rw [Document.importNode, kinds_eq forest]
  exact copyWithin_eq_graft (fun _ _ => holds) (Nat.le_trans bounded enough)

/-- Cloning node by node puts the same nodes into the document as cloning the subtree: what is read
in the growing document are old nodes, which stay as they are. -/
theorem WellFormed.copyWithin_eq_cloneNode (wellFormed : doc.WellFormed) (used : node < doc.size)
    {limit : Nat} (enough : doc.size ≤ limit) :
    doc.copyWithin id limit node = doc.cloneNode node := by
  obtain ⟨below, forest, holds, bounded⟩ := wellFormed.exists_tree used
  rw [Document.cloneNode, kinds_eq forest]
  refine copyWithin_eq_graft (fun all starts => ?_) (Nat.le_trans bounded enough)
  obtain ⟨more, rfl⟩ := starts
  have tops : ∀ top ∈ (Forest.tree (node, doc.kind node) below).tops, top < doc.size :=
    List.forall_mem_singleton.mpr used
  have inside := holds.ids_lt_size wellFormed tops
  have same {inner : NodeId} (member : inner ∈ (Forest.tree (node, doc.kind node) below).ids) :
      (Document.mk (doc.records.toList ++ more).toArray).records[inner]? =
        doc.records[inner]? := by
    have old : inner < doc.records.toList.length := inside inner member
    rw [List.getElem?_toArray, List.getElem?_append_left old, Array.getElem?_toList]
  apply holds.kept
  · intro inner member
    rw [id, Document.kind, Document.kind, same member]
  · intro inner member
    rw [id, Document.children, Document.children, same member]

end copies

/-! The copy and its original. -/

/-- A forest whose nodes are renamed in document order is the numbered one. -/
theorem numbered_eq_map {image : NodeId → NodeId} {first : Nat}
    {forest : Forest (NodeId × NodeKind)}
    (images : forest.ids.map image = List.range' first forest.preorder.length) :
    (forest.map Prod.snd).numbered first = forest.map fun entry => (image entry.1, entry.2) := by
  induction forest generalizing first with
  | nil => rfl
  | cons entry below rest inner outer =>
      rw [Forest.ids_cons, Forest.preorder, List.length_cons, List.length_append,
        List.range'_succ, ← List.range'_append_1, List.map_cons, List.map_append] at images
      obtain ⟨head, tail⟩ := List.cons.inj images
      obtain ⟨inside, beside⟩ := List.append_inj tail (by simp [Forest.ids])
      rw [Forest.map, Forest.map, Forest.numbered, inner inside, Forest.preorder_map,
        List.length_map, outer beside, head]

/-- Where a forest and its renamed form are held, the renaming keeps kinds and children. -/
theorem Holds.image {source next : Document} {image : NodeId → NodeId}
    {forest : Forest (NodeId × NodeKind)} (holds : source.Holds forest)
    (renamed : next.Holds (forest.map fun entry => (image entry.1, entry.2))) :
    ∀ node ∈ forest.ids, next.kind (image node) = source.kind node ∧
      next.children (image node) = (source.children node).map image := by
  induction forest with
  | nil => exact nofun
  | cons entry below rest inner outer =>
      obtain ⟨kind, children, belowHolds, restHolds⟩ := holds
      obtain ⟨renamedKind, renamedChildren, belowRenamed, restRenamed⟩ := renamed
      intro node member
      rcases Forest.mem_ids_cons.mp member with rfl | inside | beside
      · refine ⟨renamedKind.trans kind.symm, ?_⟩
        rw [children]
        exact renamedChildren.trans (by simp [Forest.tops])
      · exact inner belowHolds belowRenamed node inside
      · exact outer restHolds restRenamed node beside

theorem map_idxOf {list : List NodeId} (nodup : list.Nodup) (first : Nat) :
    list.map (fun node => first + list.idxOf node) = List.range' first list.length := by
  apply List.ext_getElem
  · simp
  · intro index inside _
    rw [List.getElem_map, List.getElem_range', nodup.idxOf_getElem index]
    omega

/-- The renaming takes a node with everything below it to another one in the next document: kinds,
which hold names, attributes and texts, and children in their order are the same. -/
structure Isomorphic (source next : Document) (node copy : NodeId) (image : NodeId → NodeId) :
    Prop where
  root : image node = copy
  injective : ∀ one other, source.Below one node → source.Below other node →
    image one = image other → one = other
  kind : ∀ inner, source.Below inner node → next.kind (image inner) = source.kind inner
  children : ∀ inner, source.Below inner node →
    next.children (image inner) = (source.children inner).map image

/-- A faithful and fresh copy of a node: a renaming of its subtree to the numbers from the old size
on, in document order, with no parent above it and nothing else changed. -/
structure Copied (source doc : Document) (node copy : NodeId) (next : Document) : Prop where
  wellFormed : next.WellFormed
  parentless : next.parent? copy = none
  isomorphic : ∃ image, Isomorphic source next node copy image ∧
    (source.forest [node]).ids.map image = List.range' doc.size (next.size - doc.size)
  numbered : (next.forest [copy]).ids = List.range' doc.size (next.size - doc.size)
  kinds : next.kinds [copy] = source.kinds [node]
  html : next.html [copy] = source.html [node]
  kept : ∀ old < doc.size, next.records[old]? = doc.records[old]?

theorem WellFormed.copied {doc source : Document} (wellFormed : doc.WellFormed)
    (sourceWellFormed : source.WellFormed) {node : NodeId} (used : node < source.size) :
    Copied source doc node doc.size (doc.graft none (source.kinds [node])).2 := by
  obtain ⟨below, forest, holds, -⟩ := sourceWellFormed.exists_tree used
  have tree := kinds_eq forest
  have bare := sourceWellFormed.bare_kinds [node]
  have recorded := doc.recorded_graft none (source.kinds [node])
  have next := wellFormed.graft _ bare
  have tops : ((source.kinds [node]).numbered doc.size).tops = [doc.size] := by
    rw [tree]
    rfl
  have grafted := next.forest_eq recorded.holds
  rw [tops] at grafted
  have kinds : (doc.graft none (source.kinds [node])).2.kinds [doc.size] = source.kinds [node] := by
    rw [Document.kinds, grafted, Forest.map_snd_numbered]
  have grown : (doc.graft none (source.kinds [node])).2.size - doc.size =
      (source.forest [node]).preorder.length := by
    rw [size_graft, Nat.add_sub_cancel_left, Document.kinds, Forest.preorder_map, List.length_map]
  constructor
  case wellFormed => exact next
  case parentless => exact recorded.parent_of_mem_tops _ (tops ▸ List.mem_singleton_self _)
  case isomorphic =>
    let image (inner : NodeId) : NodeId := doc.size + (source.forest [node]).ids.idxOf inner
    have apart : source.Apart (source.forest [node]).tops := by
      rw [(sourceWellFormed.holds_forest [node]).2]
      exact List.pairwise_singleton _ _
    have held := (sourceWellFormed.holds_forest [node]).1
    have images : (source.forest [node]).ids.map image =
        List.range' doc.size (source.forest [node]).preorder.length := by
      have renamed := map_idxOf (held.nodup_ids sourceWellFormed apart) doc.size
      rwa [Forest.ids, List.length_map] at renamed
    have renamed := numbered_eq_map images
    have same := held.image (renamed ▸ recorded.holds)
    have inside {inner : NodeId} (lower : source.Below inner node) :
        inner ∈ (source.forest [node]).ids :=
      held.mem_ids_of_below sourceWellFormed (by rw [forest]; exact List.mem_cons_self) lower
    refine ⟨image, ?_, by rw [images, grown]⟩
    constructor
    case root =>
      change doc.size + (source.forest [node]).ids.idxOf node = doc.size
      rw [forest, Forest.ids_cons, List.idxOf_cons_self, Nat.add_zero]
    case injective =>
      intro one other lower _ equal
      exact (List.idxOf_inj (inside lower)).mp (Nat.add_left_cancel equal)
    case kind => exact fun inner lower => (same inner (inside lower)).1
    case children => exact fun inner lower => (same inner (inside lower)).2
  case numbered =>
    rw [grafted, Forest.ids_numbered, grown, Document.kinds, Forest.preorder_map, List.length_map]
  case kinds => exact kinds
  case html => rw [Document.html, kinds, Document.html]
  case kept => exact fun old inside => doc.records_graft none _ inside

/-- Clones and imports are faithful and fresh, and making them node by node, with whatever bound
that suffices, comes to the same. -/
theorem copies_faithful {doc source : Document} (wellFormed : doc.WellFormed)
    (sourceWellFormed : source.WellFormed) :
    (∀ node < doc.size, Copied doc doc node (doc.cloneNode node).1 (doc.cloneNode node).2 ∧
      ∀ limit, doc.size ≤ limit → doc.copyWithin id limit node = doc.cloneNode node) ∧
    ∀ node < source.size,
      Copied source doc node (doc.importNode source node).1 (doc.importNode source node).2 ∧
      ∀ limit, source.size ≤ limit →
        doc.copyWithin (fun _ => source) limit node = doc.importNode source node :=
  ⟨fun _ used => ⟨wellFormed.copied wellFormed used,
      fun _ enough => wellFormed.copyWithin_eq_cloneNode used enough⟩,
    fun _ used => ⟨wellFormed.copied sourceWellFormed used,
      fun _ enough => sourceWellFormed.copyWithin_eq_importNode used enough⟩⟩

/-! A list with two items, the first of which holds a text and a comment. -/

def listing : Forest NodeKind :=
  .tree (.element "ul" [])
    (.cons (.element "li" [("b", "1"), ("a", "")]) (.cons (.text "x") .nil (.leaf (.comment "y")))
      (.leaf (.element "li" [])))

def listed : Document := (empty.graft none listing).2

theorem wellFormed_listed : listed.WellFormed := by
  refine WellFormed.empty.graft listing ?_
  simp [listing, Forest.Bare, NodeKind.isContainer]

theorem copies_faithful_listed :
    Copied listed listed 1 5 (listed.cloneNode 1).2 ∧
      listed.copyWithin id 5 1 = listed.cloneNode 1 ∧
      Copied listed empty 1 0 (empty.importNode listed 1).2 := by
  have size : listed.size = 5 := by decide
  obtain ⟨cloned, -⟩ := copies_faithful wellFormed_listed wellFormed_listed
  obtain ⟨-, imported⟩ := copies_faithful .empty wellFormed_listed
  obtain ⟨copied, stepwise⟩ := cloned 1 (by rw [size]; decide)
  have same := stepwise 5 (Nat.le_of_eq size)
  rw [Document.cloneNode, size] at copied
  exact ⟨copied, same, (imported 1 (by rw [size]; decide)).1⟩

example : (listed.cloneNode 1).2.children 5 = [6, 7] ∧
    (listed.cloneNode 1).2.html [5] = "<li b=\"1\" a=\"\">x<!--y--></li>" := by decide

end Document

end ViewTemplates
