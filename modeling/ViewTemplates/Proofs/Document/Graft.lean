import ViewTemplates.Proofs.Document.Subtree

/-!
A forest put into a document: its nodes stand behind all others, numbered in document order, and
nothing else changes.
-/

namespace ViewTemplates

namespace Forest

/-- Number the values in document order. -/
def numbered (first : Nat) : Forest α → Forest (Nat × α)
  | .nil => .nil
  | .cons value below rest =>
      .cons (first, value) (below.numbered (first + 1))
        (rest.numbered (first + 1 + below.preorder.length))

@[simp] theorem map_snd_numbered (first : Nat) (forest : Forest α) :
    (forest.numbered first).map Prod.snd = forest := by
  induction forest generalizing first with
  | nil => rfl
  | cons value below rest inner outer => rw [numbered, map, inner, outer]

theorem length_numbered (first : Nat) (forest : Forest α) :
    (forest.numbered first).preorder.length = forest.preorder.length := by
  rw [← List.length_map Prod.snd, ← preorder_map, map_snd_numbered]

theorem ids_numbered (first : Nat) (forest : Forest α) :
    (forest.numbered first).ids = List.range' first forest.preorder.length := by
  induction forest generalizing first with
  | nil => rfl
  | cons value below rest inner outer =>
      rw [numbered, ids_cons, inner, outer, preorder, List.length_cons, List.length_append,
        List.range'_succ, ← List.range'_append_1]

end Forest

theorem NodeKind.isElement_of_not_isContainer (kind : NodeKind)
    (leaf : kind.isContainer = false) : kind.isElement = false := by
  cases kind with
  | element => cases leaf
  | _ => rfl

namespace Document

/-- The records of a forest's nodes, the top row having the parent. -/
def recordsOf (parent : Option NodeId) : Forest (NodeId × NodeKind) → List NodeRecord
  | .nil => []
  | .cons (node, kind) below rest =>
      ⟨kind, parent, below.tops⟩ :: (recordsOf (some node) below ++ recordsOf parent rest)

theorem length_recordsOf (parent : Option NodeId) (forest : Forest (NodeId × NodeKind)) :
    (recordsOf parent forest).length = forest.preorder.length := by
  induction forest generalizing parent with
  | nil => rfl
  | cons entry below rest inner outer => simp [recordsOf, Forest.preorder, inner, outer]

theorem modify_length (f : α → α) (front back : List α) (value : α) :
    (front ++ value :: back).modify front.length f = front ++ f value :: back := by
  induction front with
  | nil => rfl
  | cons first rest induction => rw [List.cons_append, List.length_cons, List.modify_succ_cons,
      induction, List.cons_append]

section records
variable (front back : List NodeRecord)

theorem size_mk : (mk front.toArray).size = front.length := List.size_toArray

theorem setParent_create (kind : NodeKind) (parent : Option NodeId) :
    ((mk front.toArray).create kind).setParent front.length parent =
      mk (front ++ [NodeRecord.mk kind parent []]).toArray := by
  rw [create, setParent, mk.injEq, List.push_toArray, List.modify_toArray, modify_length]

theorem setChildren_append (record : NodeRecord) (row : List NodeId) :
    (mk (front ++ record :: back).toArray).setChildren front.length row =
      mk (front ++ { record with children := row } :: back).toArray := by
  rw [setChildren, mk.injEq, List.modify_toArray, modify_length]

end records

/-- Grafting puts the records of the numbered forest behind all others. -/
theorem graft_mk (front : List NodeRecord) (parent : Option NodeId) (forest : Forest NodeKind) :
    (mk front.toArray).graft parent forest =
      ((forest.numbered front.length).tops,
        mk (front ++ recordsOf parent (forest.numbered front.length)).toArray) := by
  induction forest generalizing front parent with
  | nil => simp [graft, recordsOf, Forest.numbered, Forest.roots]
  | cons kind below rest inner outer =>
      let content := below.numbered (front.length + 1)
      have grafted : (mk (front ++ [NodeRecord.mk kind parent []]).toArray).graft
            (some front.length) below =
          (content.tops, mk (front ++ NodeRecord.mk kind parent [] ::
            recordsOf (some front.length) content).toArray) := by
        rw [inner, List.length_append, List.length_singleton, List.append_assoc,
          List.singleton_append]
      have later : front.length + 1 + below.preorder.length =
          (front ++ NodeRecord.mk kind parent content.tops ::
            recordsOf (some front.length) content).length := by
        rw [List.length_append, List.length_cons, length_recordsOf, Forest.length_numbered]
        omega
      rw [graft]
      simp only [size_mk, setParent_create, grafted, setChildren_append, outer, Forest.numbered,
        recordsOf, later]
      rw [List.append_assoc, List.cons_append]
      rfl

theorem graft_eq (doc : Document) (parent : Option NodeId) (forest : Forest NodeKind) :
    doc.graft parent forest =
      ((forest.numbered doc.size).tops,
        mk (doc.records.toList ++ recordsOf parent (forest.numbered doc.size)).toArray) :=
  graft_mk doc.records.toList parent forest

/-- Each node of the forest has its record, the nodes of the top row having the parent. -/
def Recorded (doc : Document) (parent : Option NodeId) : Forest (NodeId × NodeKind) → Prop
  | .nil => True
  | .cons (node, kind) below rest =>
      doc.records[node]? = some ⟨kind, parent, below.tops⟩ ∧ Recorded doc (some node) below ∧
        Recorded doc parent rest

theorem recorded_numbered (front back : List NodeRecord) (parent : Option NodeId)
    (forest : Forest NodeKind) :
    (mk (front ++ recordsOf parent (forest.numbered front.length) ++ back).toArray).Recorded parent
      (forest.numbered front.length) := by
  induction forest generalizing front back parent with
  | nil => trivial
  | cons kind below rest inner outer =>
      let content := below.numbered (front.length + 1)
      let record := NodeRecord.mk kind parent content.tops
      let later := rest.numbered (front.length + 1 + below.preorder.length)
      have all : front ++ recordsOf parent ((Forest.cons kind below rest).numbered front.length) ++
          back = front ++ record ::
            (recordsOf (some front.length) content ++ (recordsOf parent later ++ back)) := by
        rw [Forest.numbered, recordsOf, List.append_assoc, List.cons_append, List.append_assoc]
      have contentRecorded := inner (front ++ [record]) (recordsOf parent later ++ back)
        (some front.length)
      rw [List.length_append, List.length_singleton, List.append_assoc, List.append_assoc,
        List.singleton_append] at contentRecorded
      have laterRecorded := outer (front ++ record :: recordsOf (some front.length) content) back
        parent
      have place : (front ++ record :: recordsOf (some front.length) content).length =
          front.length + 1 + below.preorder.length := by
        rw [List.length_append, List.length_cons, length_recordsOf, Forest.length_numbered]
        omega
      rw [place, List.append_assoc, List.append_assoc, List.cons_append] at laterRecorded
      rw [all]
      exact ⟨by simp [record, content], contentRecorded, laterRecorded⟩

section recorded
variable {doc : Document} {parent : Option NodeId} {forest : Forest (NodeId × NodeKind)}
  (recorded : doc.Recorded parent forest)
include recorded

theorem Recorded.holds : doc.Holds forest := by
  induction forest generalizing parent with
  | nil => trivial
  | cons entry below rest inner outer =>
      obtain ⟨record, belowRecorded, restRecorded⟩ := recorded
      refine ⟨?_, ?_, inner belowRecorded, outer restRecorded⟩
      · rw [kind, record]
      · rw [children, record]

theorem Recorded.parent_of_mem_tops : ∀ node ∈ forest.tops, doc.parent? node = parent := by
  induction forest with
  | nil => exact nofun
  | cons entry below rest _ outer =>
      obtain ⟨record, _, restRecorded⟩ := recorded
      intro node member
      rcases List.mem_cons.mp member with rfl | later
      · rw [parent?, record]
        rfl
      · exact outer restRecorded node later

/-- Every node stands in the top row, or is a child of a node of the forest before it. -/
theorem Recorded.parent_of_mem_ids (ascending : forest.ids.Pairwise (· < ·)) :
    ∀ node ∈ forest.ids, (node ∈ forest.tops ∧ doc.parent? node = parent) ∨
      ∃ upper ∈ forest.ids, upper < node ∧ doc.parent? node = some upper ∧
        node ∈ doc.children upper := by
  induction forest generalizing parent with
  | nil => exact nofun
  | cons entry below rest inner outer =>
      have tops := recorded.parent_of_mem_tops
      obtain ⟨_, children, _, _⟩ := recorded.holds
      obtain ⟨_, belowRecorded, restRecorded⟩ := recorded
      rw [Forest.ids_cons] at ascending
      obtain ⟨first, others⟩ := List.pairwise_cons.mp ascending
      obtain ⟨belowAscending, restAscending, _⟩ := List.pairwise_append.mp others
      intro node member
      rcases Forest.mem_ids_cons.mp member with rfl | inside | beside
      · exact .inl ⟨List.mem_cons_self, tops _ List.mem_cons_self⟩
      · refine .inr ?_
        -- What is in the top row below the first node hangs below that node.
        rcases inner belowRecorded belowAscending node inside with
          ⟨top, attached⟩ | ⟨upper, upperInside, lower, attached⟩
        · exact ⟨entry.1, List.mem_cons_self, first node (List.mem_append_left _ inside), attached,
            children ▸ top⟩
        · exact ⟨upper, Forest.mem_ids_cons.mpr (.inr (.inl upperInside)), lower, attached⟩
      · rcases outer restRecorded restAscending node beside with
          ⟨top, attached⟩ | ⟨upper, upperBeside, lower, attached⟩
        · exact .inl ⟨List.mem_cons_of_mem _ top, attached⟩
        · exact .inr ⟨upper, Forest.mem_ids_cons.mpr (.inr (.inr upperBeside)), lower, attached⟩

theorem Recorded.parent_of_mem_children : ∀ node ∈ forest.ids, ∀ child ∈ doc.children node,
    doc.parent? child = some node := by
  induction forest generalizing parent with
  | nil => exact nofun
  | cons entry below rest inner outer =>
      obtain ⟨_, children, _, _⟩ := recorded.holds
      obtain ⟨_, belowRecorded, restRecorded⟩ := recorded
      intro node member
      rcases Forest.mem_ids_cons.mp member with rfl | inside | beside
      · rw [children]
        exact belowRecorded.parent_of_mem_tops
      · exact inner belowRecorded node inside
      · exact outer restRecorded node beside

end recorded

theorem Holds.leaf_of_bare {doc : Document} {forest : Forest (NodeId × NodeKind)}
    (holds : doc.Holds forest) {inner : NodeKind → Bool} (bare : (forest.map Prod.snd).Bare inner) :
    ∀ node ∈ forest.ids, inner (doc.kind node) = false → doc.children node = [] := by
  induction forest with
  | nil => exact nofun
  | cons entry below rest first second =>
      obtain ⟨kind, children, belowHolds, restHolds⟩ := holds
      obtain ⟨bottom, belowBare, restBare⟩ := bare
      intro node member leaf
      rcases Forest.mem_ids_cons.mp member with rfl | inside | beside
      · rw [kind] at leaf
        cases below with
        | nil => exact children
        | cons => cases bottom leaf
      · exact first belowHolds belowBare node inside leaf
      · exact second restHolds restBare node beside leaf

/-! The document with the grafted forest. -/

section grafted
variable (doc : Document) (parent : Option NodeId) (forest : Forest NodeKind)

theorem records_graft {node : NodeId} (old : node < doc.size) :
    (doc.graft parent forest).2.records[node]? = doc.records[node]? := by
  have inside : node < doc.records.toList.length := old
  rw [graft_eq, List.getElem?_toArray, List.getElem?_append_left inside, Array.getElem?_toList]

theorem size_graft :
    (doc.graft parent forest).2.size = doc.size + forest.preorder.length := by
  rw [graft_eq]
  simp [size, length_recordsOf, Forest.length_numbered]

theorem recorded_graft :
    (doc.graft parent forest).2.Recorded parent (forest.numbered doc.size) := by
  have recorded := recorded_numbered doc.records.toList [] parent forest
  rw [List.append_nil] at recorded
  rw [graft_eq]
  exact recorded

variable {doc parent}

theorem kind_graft {node : NodeId} (old : node < doc.size) :
    (doc.graft parent forest).2.kind node = doc.kind node := by
  rw [kind, kind, records_graft doc parent forest old]

theorem parent?_graft {node : NodeId} (old : node < doc.size) :
    (doc.graft parent forest).2.parent? node = doc.parent? node := by
  rw [parent?, parent?, records_graft doc parent forest old]

theorem children_graft {node : NodeId} (old : node < doc.size) :
    (doc.graft parent forest).2.children node = doc.children node := by
  rw [children, children, records_graft doc parent forest old]

theorem mem_ids_graft {node : NodeId} (fresh : doc.size ≤ node)
    (used : node < (doc.graft parent forest).2.size) : node ∈ (forest.numbered doc.size).ids := by
  rw [size_graft] at used
  rw [Forest.ids_numbered, List.mem_range'_1]
  exact ⟨fresh, used⟩

theorem parent_of_fresh {node : NodeId} (fresh : doc.size ≤ node)
    (used : node < (doc.graft parent forest).2.size) :
    (doc.graft parent forest).2.parent? node = parent ∨
      ∃ upper, doc.size ≤ upper ∧ upper < node ∧
        (doc.graft parent forest).2.parent? node = some upper ∧
        node ∈ (doc.graft parent forest).2.children upper := by
  have ids := Forest.ids_numbered doc.size forest
  have ascending : (forest.numbered doc.size).ids.Pairwise (· < ·) := by
    rw [ids]
    exact List.pairwise_lt_range'
  rcases (recorded_graft doc parent forest).parent_of_mem_ids ascending node
      (mem_ids_graft forest fresh used) with ⟨_, attached⟩ | ⟨upper, inside, lower, attached⟩
  · exact .inl attached
  · rw [ids, List.mem_range'_1] at inside
    exact .inr ⟨upper, inside.1, lower, attached⟩

end grafted

section wellFormed
variable {doc : Document} (wellFormed : doc.WellFormed) (forest : Forest NodeKind)
include wellFormed

theorem WellFormed.parent_iff_graft (child parent : NodeId) :
    (doc.graft none forest).2.parent? child = some parent ↔
      child ∈ (doc.graft none forest).2.children parent := by
  constructor
  · intro attached
    have used := lt_size_of_parent? attached
    rcases Nat.lt_or_ge child doc.size with old | fresh
    · rw [parent?_graft forest old] at attached
      rw [children_graft forest (wellFormed.parent_lt_size attached)]
      exact wellFormed.mem_of_parent attached
    · rcases parent_of_fresh forest fresh used with top | ⟨upper, _, _, again, member⟩
      · rw [attached] at top
        cases top
      · rw [attached] at again
        cases again
        exact member
  · intro member
    have used := lt_size_of_mem_children member
    rcases Nat.lt_or_ge parent doc.size with old | fresh
    · rw [children_graft forest old] at member
      rw [parent?_graft forest (wellFormed.child_lt_size member)]
      exact wellFormed.parent_of_mem member
    · exact (recorded_graft doc none forest).parent_of_mem_children parent
        (mem_ids_graft forest fresh used) child member

theorem WellFormed.acyclic_graft (node : NodeId) : ¬(doc.graft none forest).2.Under node node := by
  have step {child parent : NodeId} (attached : (doc.graft none forest).2.ChildOf child parent) :
      (child < doc.size → parent < doc.size ∧ doc.ChildOf child parent) ∧
        (doc.size ≤ child → doc.size ≤ parent ∧ parent < child) := by
    refine ⟨fun old => ?_, fun fresh => ?_⟩
    · rw [ChildOf, parent?_graft forest old] at attached
      exact ⟨wellFormed.parent_lt_size attached, attached⟩
    · have found : (doc.graft none forest).2.parent? child = some parent := attached
      rcases parent_of_fresh forest fresh (lt_size_of_parent? found) with
        top | ⟨upper, above, lower, again, _⟩
      · rw [found] at top
        cases top
      · rw [found] at again
        cases again
        exact ⟨above, lower⟩
  -- A way up stays among the old nodes, or leads to smaller and smaller new ones.
  have run {child ancestor : NodeId} (under : (doc.graft none forest).2.Under child ancestor) :
      (child < doc.size → ancestor < doc.size ∧ doc.Under child ancestor) ∧
        (doc.size ≤ child → doc.size ≤ ancestor ∧ ancestor < child) := by
    induction under with
    | single attached =>
        exact ⟨fun old => ⟨((step attached).1 old).1, .single ((step attached).1 old).2⟩,
          (step attached).2⟩
    | tail _ attached induction =>
        refine ⟨fun old => ?_, fun fresh => ?_⟩
        · obtain ⟨bound, under⟩ := induction.1 old
          exact ⟨((step attached).1 bound).1, under.tail ((step attached).1 bound).2⟩
        · obtain ⟨bound, lower⟩ := induction.2 fresh
          obtain ⟨above, further⟩ := (step attached).2 bound
          exact ⟨above, Nat.lt_trans further lower⟩
  intro cycle
  rcases Nat.lt_or_ge node doc.size with old | fresh
  · exact wellFormed.acyclic node ((run cycle).1 old).2
  · exact Nat.lt_irrefl node ((run cycle).2 fresh).2

theorem WellFormed.graft (bare : forest.Bare NodeKind.isContainer) :
    (doc.graft none forest).2.WellFormed where
  parent_iff := wellFormed.parent_iff_graft forest
  nodup := by
    intro node
    rcases Nat.lt_or_ge node doc.size with old | fresh
    · rw [children_graft forest old]
      exact wellFormed.nodup node
    rcases Nat.lt_or_ge node (doc.graft none forest).2.size with used | unused
    · refine ((recorded_graft doc none forest).holds.children_sublist
        (mem_ids_graft forest fresh used)).nodup ?_
      rw [Forest.ids_numbered]
      exact List.nodup_range'
    · rw [children_of_size_le unused]
      exact .nil
  leaf := by
    intro node leaf
    rcases Nat.lt_or_ge node doc.size with old | fresh
    · rw [kind_graft forest old] at leaf
      rw [children_graft forest old]
      exact wellFormed.leaf node leaf
    rcases Nat.lt_or_ge node (doc.graft none forest).2.size with used | unused
    · refine (recorded_graft doc none forest).holds.leaf_of_bare ?_ node
        (mem_ids_graft forest fresh used) leaf
      rw [Forest.map_snd_numbered]
      exact bare
    · exact children_of_size_le unused
  acyclic := wellFormed.acyclic_graft forest

theorem WellFormed.kinds_graft (bare : forest.Bare NodeKind.isContainer) :
    (doc.graft none forest).2.kinds (doc.graft none forest).1 = forest := by
  have recorded := recorded_graft doc none forest
  have nodes : (doc.graft none forest).1 = (forest.numbered doc.size).tops := by rw [graft_eq]
  rw [kinds, nodes, (wellFormed.graft forest bare).forest_eq recorded.holds,
    Forest.map_snd_numbered]

end wellFormed

end Document

end ViewTemplates
