import Mathlib.Data.List.Nodup
import ViewTemplates.Proofs.Document.Graft

/-!
Elements in document order. The walk over one stack, which grows and shrinks at its end, comes to an
end, and the elements it has met by then are those that the recursive walks from its roots meet, one
walk after the other. What carries the proof is that a turn only moves a node from what is ahead of
the walk to what is behind it.
-/

namespace ViewTemplates.Document

variable {doc : Document}

/-! The recursive walk. -/

/-- The node, and then the walks from its children, one after the other. -/
def WellFormed.preorder (wellFormed : doc.WellFormed) (node : NodeId) : List NodeId :=
  node :: (doc.children node).attach.flatMap fun ⟨child, _⟩ => wellFormed.preorder child
termination_by doc.size + 1 - doc.depth node
decreasing_by
  -- the depth grows on the way down, and no depth exceeds the size of the document
  have deeper := wellFormed.depth_of_mem_children ‹child ∈ doc.children node›
  have bound := wellFormed.depth_le child
  omega

section preorder
variable (wellFormed : doc.WellFormed)
include wellFormed

theorem WellFormed.preorder_eq (node : NodeId) : wellFormed.preorder node =
    node :: (doc.children node).flatMap wellFormed.preorder := by
  rw [WellFormed.preorder, List.flatMap_subtype fun _ _ => rfl, List.unattach_attach]

/-- The recursive walks go over the forest below their roots. -/
theorem Holds.ids_eq {forest : Forest (NodeId × NodeKind)} (holds : doc.Holds forest) :
    forest.ids = forest.tops.flatMap wellFormed.preorder := by
  induction forest with
  | nil => rfl
  | cons entry below rest inner outer =>
      obtain ⟨_, children, belowHolds, restHolds⟩ := holds
      change _ = (entry.1 :: rest.tops).flatMap wellFormed.preorder
      rw [Forest.ids_cons, inner belowHolds, outer restHolds, List.flatMap_cons,
        wellFormed.preorder_eq, children, List.cons_append]

theorem WellFormed.ids_forest (nodes : List NodeId) :
    (doc.forest nodes).ids = nodes.flatMap wellFormed.preorder := by
  obtain ⟨holds, tops⟩ := wellFormed.holds_forest nodes
  rw [holds.ids_eq wellFormed, tops]

theorem WellFormed.length_forest (nodes : List NodeId) :
    (doc.forest nodes).preorder.length = (nodes.flatMap wellFormed.preorder).length := by
  rw [← wellFormed.ids_forest, Forest.ids, List.length_map]

theorem WellFormed.mem_preorder_iff {top node : NodeId} :
    node ∈ wellFormed.preorder top ↔ doc.Below node top := by
  obtain ⟨holds, tops⟩ := wellFormed.holds_forest [top]
  have ids : (doc.forest [top]).ids = wellFormed.preorder top := by
    rw [wellFormed.ids_forest, List.flatMap_singleton]
  rw [← ids]
  constructor
  · intro member
    obtain ⟨other, among, below⟩ := holds.exists_below wellFormed member
    rw [tops] at among
    rwa [← List.mem_singleton.mp among]
  · apply holds.mem_ids_of_below wellFormed
    rw [ids, wellFormed.preorder_eq]
    exact List.mem_cons_self

/-- Walks from roots that lie apart come to no node twice. -/
theorem WellFormed.nodup_preorder {nodes : List NodeId} (apart : doc.Apart nodes) :
    (nodes.flatMap wellFormed.preorder).Nodup := by
  obtain ⟨holds, tops⟩ := wellFormed.holds_forest nodes
  rw [← wellFormed.ids_forest]
  exact holds.nodup_ids wellFormed (tops.symm ▸ apart)

theorem WellFormed.count_preorder (top node : NodeId) :
    (wellFormed.preorder top).count node = if doc.isAncestorOf top node then 1 else 0 := by
  have nodup := wellFormed.nodup_preorder (List.pairwise_singleton _ top)
  rw [List.flatMap_singleton] at nodup
  by_cases above : doc.isAncestorOf top node = true
  · rw [if_pos above]
    exact List.count_eq_one_of_mem nodup
      (wellFormed.mem_preorder_iff.mpr (wellFormed.isAncestorOf_iff.mp above))
  · rw [if_neg above, List.count_eq_zero, wellFormed.mem_preorder_iff]
    exact fun below => above (wellFormed.isAncestorOf_iff.mpr below)

/-- The walks from a row of roots come to a node once for each root that it is or lies below. -/
theorem WellFormed.count_flatMap_preorder (nodes : List NodeId) (node : NodeId) :
    (nodes.flatMap wellFormed.preorder).count node =
      nodes.countP fun root => doc.isAncestorOf root node := by
  induction nodes with
  | nil => rfl
  | cons root rest induction =>
      rw [List.flatMap_cons, List.count_append, wellFormed.count_preorder, induction,
        List.countP_cons, Nat.add_comm]

end preorder

/-! The walk over a stack. -/

/-- A walk on its way: the nodes to be visited, the next one last, and the elements met so far. -/
structure Walk where
  stack : List NodeId
  met : List NodeId
  deriving Repr, DecidableEq

/-- The walk from these nodes, the first of which is visited first. -/
def Walk.start (nodes : List NodeId) : Walk := ⟨nodes.reverse, []⟩

/-- The last node of the stack is taken off and met if it is an element, and its children are put
on the stack, the first of them last. With nothing on the stack the walk is over. -/
def turn (doc : Document) (walk : Walk) : Option Walk :=
  walk.stack.getLast?.map fun node =>
    ⟨walk.stack.dropLast ++ (doc.children node).reverse,
      if doc.isElement node then walk.met ++ [node] else walk.met⟩

/-- The second walk is the first one, a turn later. -/
def Turns (doc : Document) (walk next : Walk) : Prop := doc.turn walk = some next

theorem turn_eq_none {walk : Walk} : doc.turn walk = none ↔ walk.stack = [] := by
  rw [turn, Option.map_eq_none_iff, List.getLast?_eq_none_iff]

theorem Turns.exists_eq {walk next : Walk} (turned : doc.Turns walk next) :
    ∃ node rest, walk.stack = rest ++ [node] ∧
      next = ⟨rest ++ (doc.children node).reverse, walk.met ++ [node].filter doc.isElement⟩ := by
  obtain ⟨node, last, rfl⟩ := Option.map_eq_some_iff.mp turned
  obtain ⟨rest, stack⟩ := List.getLast?_eq_some_iff.mp last
  refine ⟨node, rest, stack, ?_⟩
  cases element : doc.isElement node <;> simp [stack, element]

section walk
variable (wellFormed : doc.WellFormed)
include wellFormed

/-- The nodes that a walk has still to visit, in the order of the visits. -/
def WellFormed.ahead (walk : Walk) : List NodeId := walk.stack.reverse.flatMap wellFormed.preorder

/-- A turn moves one node from what is ahead to what is behind. -/
theorem WellFormed.exists_ahead_eq {walk next : Walk} (turned : doc.Turns walk next) :
    ∃ node, wellFormed.ahead walk = node :: wellFormed.ahead next ∧
      next.met = walk.met ++ [node].filter doc.isElement := by
  obtain ⟨node, rest, stack, rfl⟩ := turned.exists_eq
  refine ⟨node, ?_, rfl⟩
  rw [ahead, ahead, stack]
  simp [wellFormed.preorder_eq node]

/-- Every walk over a stack comes to an end, wherever it stands. -/
theorem WellFormed.wellFounded_turns : WellFounded fun next walk => doc.Turns walk next := by
  refine Subrelation.wf ?_ (measure fun walk => (wellFormed.ahead walk).length).wf
  intro next walk turned
  obtain ⟨node, ahead, -⟩ := wellFormed.exists_ahead_eq turned
  change (wellFormed.ahead next).length < (wellFormed.ahead walk).length
  rw [ahead]
  exact Nat.lt_succ_self _

/-- The elements met together with those ahead stay the same from turn to turn, so at the end they
have all been met. -/
theorem WellFormed.reaches (walk : Walk) :
    Relation.ReflTransGen doc.Turns walk
      ⟨[], walk.met ++ (wellFormed.ahead walk).filter doc.isElement⟩ := by
  induction walk using wellFormed.wellFounded_turns.induction with
  | _ walk induction =>
      cases turned : doc.turn walk with
      | none =>
          obtain ⟨stack, met⟩ := walk
          obtain rfl : stack = [] := turn_eq_none.mp turned
          rw [ahead, List.reverse_nil, List.flatMap_nil, List.filter_nil, List.append_nil]
      | some next =>
          obtain ⟨node, ahead, met⟩ := wellFormed.exists_ahead_eq turned
          have later := induction next turned
          rw [met, List.append_assoc, ← List.filter_append, List.singleton_append,
            ← ahead] at later
          exact .head turned later

end walk

/-! Elements in document order. -/

theorem Holds.elementsOf_eq {forest : Forest (NodeId × NodeKind)} (holds : doc.Holds forest) :
    elementsOf forest = forest.ids.filter doc.isElement := by
  rw [elementsOf, Forest.ids, List.filter_map]
  congr 1
  refine List.filter_congr fun entry member => ?_
  rw [Function.comp_apply, isElement, holds.kind_of_mem member]

section elements
variable (wellFormed : doc.WellFormed)
include wellFormed

theorem WellFormed.length_preorder_le (filled : 0 < doc.size) (node : NodeId) :
    (wellFormed.preorder node).length ≤ doc.size := by
  rcases Nat.lt_or_ge node doc.size with used | unused
  · obtain ⟨holds, tops⟩ := wellFormed.holds_forest [node]
    have usedTops : ∀ top ∈ (doc.forest [node]).tops, top < doc.size := by
      rw [tops]
      exact List.forall_mem_singleton.mpr used
    have bounded := holds.length_preorder_le wellFormed usedTops
    rwa [tops, List.length_singleton, Nat.one_mul, wellFormed.length_forest,
      List.flatMap_singleton] at bounded
  · rw [wellFormed.preorder_eq, children_of_size_le unused]
    exact filled

theorem WellFormed.length_flatMap_preorder_le (filled : 0 < doc.size) (nodes : List NodeId) :
    (nodes.flatMap wellFormed.preorder).length ≤ nodes.length * doc.size := by
  induction nodes with
  | nil => exact Nat.zero_le _
  | cons node rest induction =>
      have first := wellFormed.length_preorder_le filled node
      rw [List.flatMap_cons, List.length_append, List.length_cons, Nat.succ_mul]
      omega

/-- The elements in document order are those on the recursive walks from the roots; the limit of the
walk over a stack is never met. -/
theorem WellFormed.elementsInOrder_eq_filter (nodes : List NodeId) :
    doc.elementsInOrder nodes = (nodes.flatMap wellFormed.preorder).filter doc.isElement := by
  rcases Nat.eq_zero_or_pos doc.size with empty | filled
  · -- the limit may cut the walk off here, but without nodes there is no element to miss
    have none (node : NodeId) : doc.isElement node = false := by
      rw [isElement, kind_of_size_le (empty ▸ Nat.zero_le node)]
      rfl
    cases nodes <;> simp [elementsInOrder, elementsWithin, empty, none]
  · obtain ⟨holds, tops⟩ := wellFormed.holds_forest nodes
    have bounded := wellFormed.length_flatMap_preorder_le filled nodes
    rw [← wellFormed.length_forest] at bounded
    obtain ⟨extra, enough⟩ := Nat.exists_eq_add_of_le (Nat.le_succ_of_le bounded)
    have walk := holds.elementsWithin_eq extra []
    rw [tops, List.append_nil, elementsWithin_nil, List.append_nil, ← enough,
      holds.elementsOf_eq, wellFormed.ids_forest] at walk
    exact walk

/-- How the elements in document order come about: as what the walk over a stack has met at its end,
and as what the recursive walks meet, each root's in its turn. An element is there once for each
root that it is or lies below, so once where no root overlaps another. -/
structure WellFormed.Enumerates (nodes elements : List NodeId) : Prop where
  run : Relation.ReflTransGen doc.Turns (.start nodes) ⟨[], elements⟩
  walks : elements = nodes.flatMap fun root => (wellFormed.preorder root).filter doc.isElement
  count : ∀ node, doc.isElement node = true →
    elements.count node = nodes.countP fun root => doc.isAncestorOf root node
  once : doc.Apart nodes → ∀ root ∈ nodes, ∀ node, doc.Below node root →
    doc.isElement node = true → elements.count node = 1

/-- Enumerating elements over a stack ends, from wherever a walk stands, and comes to the recursive
walks from the roots in turn, whether these repeat, overlap or are fragments. -/
theorem enumerates_elementsInOrder :
    (WellFounded fun next walk => doc.Turns walk next) ∧
      ∀ nodes, wellFormed.Enumerates nodes (doc.elementsInOrder nodes) := by
  refine ⟨wellFormed.wellFounded_turns, fun nodes => ?_⟩
  have elements := wellFormed.elementsInOrder_eq_filter nodes
  have counted {node : NodeId} (element : doc.isElement node = true) :
      (doc.elementsInOrder nodes).count node = (nodes.flatMap wellFormed.preorder).count node := by
    rw [elements, List.count_filter element]
  constructor
  case run =>
    have reaches := wellFormed.reaches (.start nodes)
    rwa [WellFormed.ahead, Walk.start, List.reverse_reverse, List.nil_append, ← elements]
      at reaches
  case walks => rw [elements, List.filter_flatMap]
  case count =>
    intro node element
    rw [counted element, wellFormed.count_flatMap_preorder]
  case once =>
    intro apart root among node below element
    rw [counted element]
    exact List.count_eq_one_of_mem (wellFormed.nodup_preorder apart)
      (List.mem_flatMap.mpr ⟨root, among, wellFormed.mem_preorder_iff.mpr below⟩)

end elements

/-! A list whose items stand below a fragment, enumerated from the fragment, from the list and from
the fragment again. -/

def gathered : Document :=
  (empty.graft none (.tree (.element "ul" [])
    (.cons .fragment (.cons (.element "li" []) (.leaf (.text "x")) (.leaf (.element "li" [])))
      (.leaf (.element "hr" []))))).2

theorem wellFormed_gathered : gathered.WellFormed := by
  refine WellFormed.empty.graft _ ?_
  simp [Forest.Bare, NodeKind.isContainer]

theorem enumerates_elementsInOrder_gathered :
    wellFormed_gathered.Enumerates [1, 0, 1] [2, 4, 0, 2, 4, 5, 2, 4] ∧ gathered.Apart [1, 5] ∧
      (gathered.elementsInOrder [1, 5]).count 4 = 1 := by
  have elements : gathered.elementsInOrder [1, 0, 1] = [2, 4, 0, 2, 4, 5, 2, 4] := by decide
  have element : gathered.isElement 4 = true := by decide
  have below : gathered.Below 4 1 := wellFormed_gathered.isAncestorOf_iff.mp (by decide)
  have apart : gathered.Apart [1, 5] := by
    have left : gathered.isAncestorOf 5 1 = false := by decide
    have right : gathered.isAncestorOf 1 5 = false := by decide
    rw [Apart, List.pairwise_pair, ← wellFormed_gathered.isAncestorOf_iff,
      ← wellFormed_gathered.isAncestorOf_iff, left, right]
    exact ⟨Bool.false_ne_true, Bool.false_ne_true⟩
  obtain ⟨-, enumerates⟩ := enumerates_elementsInOrder wellFormed_gathered
  exact ⟨elements ▸ enumerates [1, 0, 1], apart,
    (enumerates [1, 5]).once apart 1 List.mem_cons_self 4 below element⟩

example : gathered.turn ⟨[0, 1], []⟩ = some ⟨[0, 4, 2], []⟩ ∧
    gathered.turn ⟨[0, 4, 2], []⟩ = some ⟨[0, 4, 3], [2]⟩ := by decide

end ViewTemplates.Document
