import ViewTemplates.Proofs.Compiler.Edits
import ViewTemplates.Proofs.Compiler.Visits

/-!
Extractions in any document. What the changes of a walk do is said of the elements whose content was
taken: those that have their anchor by then, and those that have not. Nothing is asked of the nodes
around them, so walks can follow one another whatever nodes they begin at.
-/

namespace ViewTemplates

open Document

theorem Document.forest_cons (doc : Document) (node : NodeId) (rest : List NodeId) :
    doc.forest (node :: rest) = doc.forest [node] ++ doc.forest rest := rfl

namespace Setup

variable {setup : Setup}

theorem isClaimed_of_isReplaced {kind : NodeKind} (replaced : setup.isReplaced kind = true) :
    setup.isClaimed kind = true := by
  rw [isReplaced, Bool.and_eq_true] at replaced
  exact replaced.1

theorem isClaimed_anchor (setup : Setup) : setup.isClaimed setup.anchor = false := by
  have unclaimed : setup.claims setup.anchor = [] := claims_of_not_isElement setup rfl
  rw [isClaimed, template?, unclaimed]
  rfl

/-- What stands in the place of a node once the content of these elements was compiled: the anchor
of a template element, or the node itself. -/
def standInAmong (setup : Setup) (doc : Document) (finished : List NodeId)
    (anchorOf : NodeId → NodeId) (node : NodeId) : NodeId :=
  if node ∈ finished ∧ setup.isReplaced (doc.kind node) = true then anchorOf node else node

/-- The content of the finished elements went into a template, and they have an anchor, inside them
or in their place. The content of the open ones was taken, and they have no anchor yet. Nothing else
has changed for an old node, and nothing but anchors is new. -/
structure Extracted (setup : Setup) (doc next : Document) (finished opened : List NodeId)
    (anchorOf : NodeId → NodeId) : Prop where
  wellFormed : next.WellFormed
  grown : next.size = doc.size + finished.length
  kind : ∀ node < doc.size, next.kind node = doc.kind node
  claimed : ∀ node, node ∈ finished ∨ node ∈ opened →
    node < doc.size ∧ setup.isClaimed (doc.kind node) = true
  anchors : ∀ node ∈ finished, doc.size ≤ anchorOf node ∧ anchorOf node < next.size
  injective : ∀ node ∈ finished, ∀ other ∈ finished, anchorOf node = anchorOf other → node = other
  new : ∀ node, doc.size ≤ node → node < next.size →
    next.kind node = setup.anchor ∧ next.children node = []
  children : ∀ node < doc.size, next.children node =
    if node ∈ opened then []
    else if node ∈ finished then
      if setup.isReplaced (doc.kind node) then [] else [anchorOf node]
    else (doc.children node).map (setup.standInAmong doc finished anchorOf)

namespace Extracted

variable {doc middle next : Document} {finished opened later : List NodeId}
  {anchorOf anchorOfLater : NodeId → NodeId} {node : NodeId}

theorem size (extracted : setup.Extracted doc next finished opened anchorOf) :
    doc.size ≤ next.size := by
  rw [extracted.grown]
  exact Nat.le_add_right _ _

theorem standInAmong_of_notMem (absent : node ∉ finished) :
    setup.standInAmong doc finished anchorOf node = node := if_neg fun both => absent both.1

theorem standInAmong_nil : setup.standInAmong doc [] anchorOf = id := by
  funext child
  exact standInAmong_of_notMem List.not_mem_nil

theorem refl (wellFormed : doc.WellFormed) : setup.Extracted doc doc [] [] anchorOf where
  wellFormed := wellFormed
  grown := rfl
  kind := fun _ _ => rfl
  claimed := by simp
  anchors := nofun
  injective := nofun
  new := fun node old used => absurd used (Nat.not_lt.mpr old)
  children := by
    intro node _
    simp [standInAmong_nil]

/-! One walk after another. -/

/-- An element that was replaced keeps its first anchor, and any other one has its last. -/
def joinedAnchors (setup : Setup) (doc : Document) (finished later : List NodeId)
    (first second : NodeId → NodeId) (node : NodeId) : NodeId :=
  if node ∈ finished ∧ (setup.isReplaced (doc.kind node) = true ∨ node ∉ later) then first node
  else second node

section trans
variable (first : setup.Extracted doc middle finished [] anchorOf)
  (second : setup.Extracted middle next later opened anchorOfLater)
include first second

/-- What is claimed in the document by then was there before. -/
theorem old_of_claimed (claimed : node ∈ later ∨ node ∈ opened) :
    node < doc.size ∧ setup.isClaimed (doc.kind node) = true := by
  obtain ⟨used, claim⟩ := second.claimed node claimed
  rcases Nat.lt_or_ge node doc.size with old | new
  · rw [first.kind node old] at claim
    exact ⟨old, claim⟩
  · rw [(first.new node new used).1, isClaimed_anchor] at claim
    contradiction

/-- What is new by then is not claimed. -/
theorem notMem_of_new (new : doc.size ≤ node) : node ∉ later ∧ node ∉ opened := by
  constructor
  · exact fun member => Nat.not_lt.mpr new (first.old_of_claimed second (.inl member)).1
  · exact fun member => Nat.not_lt.mpr new (first.old_of_claimed second (.inr member)).1

omit first second in
theorem joinedAnchors_cases (member : node ∈ finished ++ later) :
    node ∈ finished ∧
        joinedAnchors setup doc finished later anchorOf anchorOfLater node = anchorOf node ∨
      node ∈ later ∧
        joinedAnchors setup doc finished later anchorOf anchorOfLater node =
          anchorOfLater node := by
  unfold joinedAnchors
  split
  next both => exact .inl ⟨both.1, rfl⟩
  next other =>
    refine .inr ⟨?_, rfl⟩
    rcases List.mem_append.mp member with early | late
    · apply Decidable.byContradiction
      intro absent
      exact other ⟨early, .inr absent⟩
    · exact late

theorem standInAmong_append :
    setup.standInAmong middle later anchorOfLater ∘ setup.standInAmong doc finished anchorOf =
      setup.standInAmong doc (finished ++ later)
        (joinedAnchors setup doc finished later anchorOf anchorOfLater) := by
  funext child
  rw [Function.comp_apply]
  by_cases early : child ∈ finished ∧ setup.isReplaced (doc.kind child) = true
  · have anchored : setup.standInAmong doc finished anchorOf child = anchorOf child := if_pos early
    have kept := (first.notMem_of_new second (first.anchors child early.1).1).1
    have both : child ∈ finished ++ later ∧ setup.isReplaced (doc.kind child) = true :=
      ⟨List.mem_append_left _ early.1, early.2⟩
    rw [anchored, standInAmong_of_notMem kept, standInAmong, if_pos both, joinedAnchors,
      if_pos ⟨early.1, .inl early.2⟩]
  · have same : setup.standInAmong doc finished anchorOf child = child := if_neg early
    rw [same]
    by_cases late : child ∈ later
    · have old := (first.old_of_claimed second (.inl late)).1
      rw [standInAmong, standInAmong, first.kind child old]
      cases replaced : setup.isReplaced (doc.kind child) with
      | true =>
          have fresh : child ∉ finished := fun member => early ⟨member, replaced⟩
          rw [if_pos ⟨late, rfl⟩, if_pos ⟨List.mem_append_right _ late, rfl⟩, joinedAnchors,
            if_neg fun both => fresh both.1]
      | false => simp
    · rw [standInAmong_of_notMem late, standInAmong, if_neg]
      rintro ⟨member, replaced⟩
      rcases List.mem_append.mp member with among | among
      · exact early ⟨among, replaced⟩
      · exact late among

theorem trans : setup.Extracted doc next (finished ++ later) opened
    (joinedAnchors setup doc finished later anchorOf anchorOfLater) := by
  constructor
  case wellFormed => exact second.wellFormed
  case grown => rw [second.grown, first.grown, List.length_append, Nat.add_assoc]
  case kind =>
    intro node old
    rw [second.kind node (Nat.lt_of_lt_of_le old first.size), first.kind node old]
  case claimed =>
    rintro node (member | member)
    · rcases List.mem_append.mp member with early | late
      · exact first.claimed node (.inl early)
      · exact first.old_of_claimed second (.inl late)
    · exact first.old_of_claimed second (.inr member)
  case anchors =>
    intro node member
    rcases joinedAnchors_cases member with ⟨early, same⟩ | ⟨late, same⟩
    · have bounds := first.anchors node early
      rw [same]
      exact ⟨bounds.1, Nat.lt_of_lt_of_le bounds.2 second.size⟩
    · have bounds := second.anchors node late
      rw [same]
      exact ⟨Nat.le_trans first.size bounds.1, bounds.2⟩
  case injective =>
    -- The anchors of the first walk are old in the second one.
    intro node member other again equal
    rcases joinedAnchors_cases member with ⟨mine, same⟩ | ⟨mine, same⟩
    · rcases joinedAnchors_cases again with ⟨theirs, alike⟩ | ⟨theirs, alike⟩
      · rw [same, alike] at equal
        exact first.injective node mine other theirs equal
      · have lower := (first.anchors node mine).2
        have upper := (second.anchors other theirs).1
        rw [same, alike] at equal
        rw [equal] at lower
        exact absurd lower (Nat.not_lt.mpr upper)
    · rcases joinedAnchors_cases again with ⟨theirs, alike⟩ | ⟨theirs, alike⟩
      · have lower := (first.anchors other theirs).2
        have upper := (second.anchors node mine).1
        rw [same, alike] at equal
        rw [← equal] at lower
        exact absurd lower (Nat.not_lt.mpr upper)
      · rw [same, alike] at equal
        exact second.injective node mine other theirs equal
  case new =>
    intro node new used
    rcases Nat.lt_or_ge node middle.size with early | late
    · obtain ⟨kind, children⟩ := first.new node new early
      obtain ⟨notLater, notOpened⟩ := first.notMem_of_new second new
      rw [second.kind node early, second.children node early, if_neg notOpened, if_neg notLater,
        children]
      exact ⟨kind, rfl⟩
    · exact second.new node late used
  case children =>
    intro node old
    have used := Nat.lt_of_lt_of_le old first.size
    rw [second.children node used, first.kind node old, first.children node old,
      if_neg List.not_mem_nil, ← first.standInAmong_append second]
    by_cases member : node ∈ opened
    · rw [if_pos member, if_pos member]
    · rw [if_neg member, if_neg member]
      by_cases late : node ∈ later
      · rw [if_pos late, if_pos (List.mem_append_right _ late)]
        split
        next => rfl
        next left =>
          rw [joinedAnchors, if_neg]
          rintro ⟨_, replaced | absent⟩
          · exact left replaced
          · exact absent late
      · rw [if_neg late]
        by_cases early : node ∈ finished
        · rw [if_pos early, if_pos (List.mem_append_left _ early)]
          split
          next => rfl
          next =>
            have kept := (first.notMem_of_new second (first.anchors node early).1).1
            rw [List.map_singleton, standInAmong_of_notMem kept, joinedAnchors,
              if_pos ⟨early, .inr late⟩]
        · have neither : node ∉ finished ++ later := by
            rw [List.mem_append, not_or]
            exact ⟨early, late⟩
          rw [if_neg early, if_neg neither, List.map_map]

end trans

/-! One element and its content. -/

section element
variable (claim : setup.isClaimed (doc.kind node) = true) (used : node < doc.size)
  (outside : node ∉ finished)

include claim used outside in
/-- An element whose content was taken is open. -/
theorem taken (content : setup.Extracted (doc.takeChildren node) next finished opened anchorOf) :
    setup.Extracted doc next finished (node :: opened) anchorOf := by
  have size : (doc.takeChildren node).size = doc.size := size_takeChildren ..
  have kind (other : NodeId) : (doc.takeChildren node).kind other = doc.kind other :=
    kind_takeChildren ..
  have standIn : setup.standInAmong (doc.takeChildren node) finished anchorOf =
      setup.standInAmong doc finished anchorOf := by
    funext other
    rw [standInAmong, standInAmong, kind]
  constructor
  case wellFormed => exact content.wellFormed
  case grown => rw [content.grown, size]
  case kind =>
    intro other old
    rw [content.kind other (size ▸ old), kind]
  case claimed =>
    have inner := content.claimed
    simp only [size, kind] at inner
    rintro other (member | member)
    · exact inner other (.inl member)
    · rcases List.mem_cons.mp member with rfl | member
      · exact ⟨used, claim⟩
      · exact inner other (.inr member)
  case anchors =>
    rw [← size]
    exact content.anchors
  case injective => exact content.injective
  case new =>
    rw [← size]
    exact content.new
  case children =>
    intro other old
    rw [content.children other (size ▸ old), standIn, kind, children_takeChildren]
    by_cases own : other = node
    · subst own
      simp [outside]
    · simp [own]

end element

section anchored
variable (content : setup.Extracted doc middle finished [node] anchorOf) (outside : node ∉ finished)

include outside in
theorem update_of_finished {old : NodeId} (member : old ∈ finished) (anchor : NodeId) :
    Function.update anchorOf node anchor old = anchorOf old := by
  apply Function.update_of_ne
  rintro rfl
  exact outside member

include content

theorem children_of_opened : middle.children node = [] := by
  rw [content.children node (content.claimed node (.inr List.mem_cons_self)).1,
    if_pos List.mem_cons_self]

theorem children_of_spared {old : NodeId} (bound : old < doc.size) (different : old ≠ node) :
    middle.children old =
      if old ∈ finished then
        if setup.isReplaced (doc.kind old) then [] else [anchorOf old]
      else (doc.children old).map (setup.standInAmong doc finished anchorOf) := by
  rw [content.children old bound, if_neg fun member => different (List.mem_singleton.mp member)]

include outside

theorem update_injective : ∀ one ∈ node :: finished, ∀ two ∈ node :: finished,
    Function.update anchorOf node middle.size one =
      Function.update anchorOf node middle.size two → one = two := by
  have fresh {old : NodeId} (member : old ∈ finished) : anchorOf old ≠ middle.size :=
    Nat.ne_of_lt (content.anchors old member).2
  simp only [List.forall_mem_cons, Function.update_self]
  refine ⟨⟨fun _ => trivial, fun two theirs equal => ?_⟩,
    fun one mine => ⟨fun equal => ?_, fun two theirs equal => ?_⟩⟩
  · rw [update_of_finished outside theirs] at equal
    exact absurd equal.symm (fresh theirs)
  · rw [update_of_finished outside mine] at equal
    exact absurd equal (fresh mine)
  · rw [update_of_finished outside mine, update_of_finished outside theirs] at equal
    exact content.injective one mine two theirs equal

/-- An open element is finished by a change that creates its anchor, whichever way that is
placed. -/
theorem finish {last : Document} (wellFormed : last.WellFormed)
    (size : last.size = middle.size + 1)
    (kind : ∀ other, last.kind other =
      if other = middle.size then setup.anchor else middle.kind other)
    (bare : ∀ other, doc.size ≤ other → middle.children other = [] → last.children other = [])
    (children : ∀ old < doc.size, last.children old =
      if old ∈ node :: finished then
        if setup.isReplaced (doc.kind old) then []
        else [Function.update anchorOf node middle.size old]
      else (doc.children old).map (setup.standInAmong doc (node :: finished)
        (Function.update anchorOf node middle.size))) :
    setup.Extracted doc last (node :: finished) [] (Function.update anchorOf node middle.size) := by
  constructor
  case wellFormed => exact wellFormed
  case grown => rw [size, content.grown, List.length_cons, Nat.add_assoc]
  case kind =>
    intro old bound
    rw [kind, if_neg (Nat.ne_of_lt (Nat.lt_of_lt_of_le bound content.size)),
      content.kind old bound]
  case claimed =>
    rintro old (member | member)
    · rcases List.mem_cons.mp member with rfl | member
      · exact content.claimed _ (.inr List.mem_cons_self)
      · exact content.claimed old (.inl member)
    · contradiction
  case anchors =>
    rw [List.forall_mem_cons, Function.update_self, size]
    refine ⟨⟨content.size, Nat.lt_succ_self _⟩, fun old member => ?_⟩
    rw [update_of_finished outside member]
    have bounds := content.anchors old member
    exact ⟨bounds.1, Nat.lt_succ_of_lt bounds.2⟩
  case injective => exact content.update_injective outside
  case new =>
    intro old new bound
    rw [kind]
    split
    next same =>
      subst same
      exact ⟨rfl, bare _ new (children_of_size_le (Nat.le_refl _))⟩
    next different =>
      rw [size] at bound
      obtain ⟨anchor, none⟩ :=
        content.new old new (Nat.lt_of_le_of_ne (Nat.le_of_lt_succ bound) different)
      exact ⟨anchor, bare old new none⟩
  case children =>
    intro old bound
    rw [children old bound, if_neg List.not_mem_nil]

theorem anchoredInside (left : setup.isReplaced (doc.kind node) = false) :
    setup.Extracted doc (Edit.apply setup.anchor middle (.anchorInside node)) (node :: finished) []
        (Function.update anchorOf node middle.size) ∧
      (Edit.apply setup.anchor middle (.anchorInside node)).size = middle.size + 1 := by
  obtain ⟨used, claim⟩ := content.claimed node (.inr List.mem_cons_self)
  obtain ⟨directive, template⟩ := Option.isSome_iff_exists.mp claim
  have container : (middle.kind node).isContainer = true := by
    rw [content.kind node used]
    exact isContainer_of_template? template
  have standIn : setup.standInAmong doc (node :: finished)
      (Function.update anchorOf node middle.size) = setup.standInAmong doc finished anchorOf := by
    funext other
    by_cases member : other ∈ finished
    · simp only [standInAmong, List.mem_cons, member, or_true, update_of_finished outside member]
    · rw [standInAmong_of_notMem member, standInAmong, if_neg]
      rintro ⟨among, replaced⟩
      rcases List.mem_cons.mp among with rfl | among
      · rw [left] at replaced
        contradiction
      · exact member among
  obtain ⟨last, made, wellFormed, size, kind, children⟩ :=
    Edit.apply_anchorInside content.wellFormed setup.config.anchorText
      (Nat.lt_of_lt_of_le used content.size) container content.children_of_opened
  rw [anchor, made]
  refine ⟨content.finish outside wellFormed size kind ?_ ?_, size⟩
  · intro other new none
    rw [children, if_neg (Nat.ne_of_gt (Nat.lt_of_lt_of_le used new)), none]
  · intro old bound
    rw [children, standIn]
    by_cases own : old = node
    · subst own
      rw [if_pos rfl, if_pos List.mem_cons_self, left, Function.update_self]
      rfl
    · rw [if_neg own, content.children_of_spared bound own, Function.update_of_ne own]
      simp only [List.mem_cons, own, false_or]

theorem anchoredInstead (replaced : setup.isReplaced (doc.kind node) = true) :
    setup.Extracted doc (Edit.apply setup.anchor middle (.anchorInstead node)) (node :: finished) []
        (Function.update anchorOf node middle.size) ∧
      (Edit.apply setup.anchor middle (.anchorInstead node)).size = middle.size + 1 := by
  have newer {old : NodeId} (member : old ∈ finished) : anchorOf old ≠ node :=
    Nat.ne_of_gt (Nat.lt_of_lt_of_le (content.claimed node (.inr List.mem_cons_self)).1
      (content.anchors old member).1)
  have standIn : swap node middle.size ∘ setup.standInAmong doc finished anchorOf =
      setup.standInAmong doc (node :: finished) (Function.update anchorOf node middle.size) := by
    funext other
    rw [Function.comp_apply]
    by_cases own : other = node
    · subst own
      rw [standInAmong_of_notMem outside, standInAmong, if_pos ⟨List.mem_cons_self, replaced⟩,
        Function.update_self]
      exact if_pos rfl
    · by_cases among : other ∈ finished ∧ setup.isReplaced (doc.kind other) = true
      · rw [standInAmong, if_pos among, standInAmong,
          if_pos ⟨List.mem_cons_of_mem _ among.1, among.2⟩, Function.update_of_ne own]
        exact if_neg (newer among.1)
      · rw [standInAmong, if_neg among, standInAmong, if_neg]
        · exact if_neg own
        · rintro ⟨member, again⟩
          rcases List.mem_cons.mp member with same | member
          · exact own same
          · exact among ⟨member, again⟩
  obtain ⟨last, made, wellFormed, size, kind, children⟩ :=
    Edit.apply_anchorInstead content.wellFormed setup.config.anchorText node
  rw [anchor, made]
  refine ⟨content.finish outside wellFormed size kind ?_ ?_, size⟩
  · intro other _ none
    rw [children, none, List.map_nil]
  · intro old bound
    rw [children, ← standIn]
    by_cases own : old = node
    · subst own
      rw [content.children_of_opened, if_pos List.mem_cons_self, replaced]
      rfl
    · rw [content.children_of_spared bound own, Function.update_of_ne own]
      simp only [List.mem_cons, own, false_or]
      by_cases member : old ∈ finished
      · rw [if_pos member, if_pos member]
        split
        next => rfl
        next => exact congrArg ([·]) (if_neg (newer member))
      · rw [if_neg member, if_neg member, List.map_map]

/-- The change that places the anchor of an element. -/
def anchoring (setup : Setup) (doc : Document) (node : NodeId) : Edit NodeId :=
  if setup.isTemplateElement (doc.kind node) then .anchorInstead node else .anchorInside node

/-- An open element gets its anchor. -/
theorem anchored :
    setup.Extracted doc (Edit.apply setup.anchor middle (anchoring setup doc node))
        (node :: finished) [] (Function.update anchorOf node middle.size) ∧
      (Edit.apply setup.anchor middle (anchoring setup doc node)).size = middle.size + 1 := by
  have claim : setup.isClaimed (doc.kind node) = true :=
    (content.claimed node (.inr List.mem_cons_self)).2
  have replaced : setup.isReplaced (doc.kind node) = setup.isTemplateElement (doc.kind node) := by
    rw [isReplaced, show (setup.template? (doc.kind node)).isSome = true from claim]
    rfl
  rw [anchoring]
  cases tag : setup.isTemplateElement (doc.kind node) with
  | true => exact content.anchoredInstead outside (replaced.trans tag)
  | false => exact content.anchoredInside outside (replaced.trans tag)

end anchored

end Extracted

/-! The changes of a walk. -/

/-- The document has the nodes of the source, each of its kind, and the source has none twice. -/
structure Listed (doc : Document) (source : Forest (NodeId × NodeKind)) : Prop where
  wellFormed : doc.WellFormed
  known : ∀ entry ∈ source.preorder, entry.1 < doc.size ∧ doc.kind entry.1 = entry.2
  nodup : source.ids.Nodup

namespace Listed

variable {doc next : Document} {source content others : Forest (NodeId × NodeKind)}
  {entry : NodeId × NodeKind}

theorem of_preorder_sublist (listed : Listed doc source)
    (part : others.preorder.Sublist source.preorder) : Listed doc others where
  wellFormed := listed.wellFormed
  known := fun entry member => listed.known entry (part.subset member)
  nodup := (part.map Prod.fst).nodup listed.nodup

theorem front (listed : Listed doc (source ++ others)) : Listed doc source := by
  apply listed.of_preorder_sublist
  rw [Forest.preorder_append]
  exact List.sublist_append_left _ _

theorem back (listed : Listed doc (source ++ others)) : Listed doc others := by
  apply listed.of_preorder_sublist
  rw [Forest.preorder_append]
  exact List.sublist_append_right _ _

theorem disjoint (listed : Listed doc (source ++ others)) {node : NodeId}
    (member : node ∈ source.ids) : node ∉ others.ids := by
  have nodup := listed.nodup
  rw [Forest.ids_append, List.nodup_append] at nodup
  exact fun again => nodup.2.2 node member node again rfl

theorem below (listed : Listed doc (.cons entry content others)) : Listed doc content :=
  listed.of_preorder_sublist ((List.sublist_append_left _ _).cons _)

theorem tree (listed : Listed doc (.cons entry content others)) : Listed doc (.tree entry content) :=
  @front _ (.tree entry content) others listed

theorem rest (listed : Listed doc (.cons entry content others)) : Listed doc others :=
  @back _ (.tree entry content) others listed

theorem used (listed : Listed doc source) : ∀ node ∈ source.ids, node < doc.size := by
  intro node member
  obtain ⟨entry, inside, rfl⟩ := List.mem_map.mp member
  exact (listed.known entry inside).1

theorem reached (listed : Listed doc source) : Listed doc source.reached :=
  listed.of_preorder_sublist (Forest.preorder_pruned_sublist source)

theorem head (listed : Listed doc (.cons entry content others)) :
    entry.1 < doc.size ∧ doc.kind entry.1 = entry.2 := listed.known entry List.mem_cons_self

theorem outside (listed : Listed doc (.cons entry content others)) : entry.1 ∉ content.ids := by
  have nodup := listed.nodup
  rw [Forest.ids_cons, List.nodup_cons, List.mem_append, not_or] at nodup
  exact nodup.1.1

theorem takeChildren (listed : Listed doc source) (node : NodeId) :
    Listed (doc.takeChildren node) source where
  wellFormed := listed.wellFormed.takeChildren node
  known := by
    intro entry member
    rw [size_takeChildren, kind_takeChildren]
    exact listed.known entry member
  nodup := listed.nodup

theorem extracted {finished opened : List NodeId} {anchorOf : NodeId → NodeId}
    (listed : Listed doc source) (extracted : setup.Extracted doc next finished opened anchorOf) :
    Listed next source where
  wellFormed := extracted.wellFormed
  known := by
    intro entry member
    obtain ⟨used, kind⟩ := listed.known entry member
    exact ⟨Nat.lt_of_lt_of_le used extracted.size, (extracted.kind entry.1 used).trans kind⟩
  nodup := listed.nodup

end Listed

theorem Shows.listed {doc : Document} {source : Forest (NodeId × NodeKind)}
    (shows : Shows doc source) : Listed doc source where
  wellFormed := shows.wellFormed
  known := fun entry member =>
    ⟨shows.used entry.1 (List.mem_map_of_mem member), shows.holds.kind_of_mem member⟩
  nodup := shows.nodup

theorem Shows.front {doc : Document} {source others : Forest (NodeId × NodeKind)}
    (shows : Shows doc (source ++ others)) : Shows doc source where
  wellFormed := shows.wellFormed
  holds := shows.holds.front
  used := shows.listed.front.used
  nodup := shows.listed.front.nodup

theorem shows_of_apart {doc : Document} (wellFormed : doc.WellFormed) {nodes : List NodeId}
    (used : ∀ node ∈ nodes, node < doc.size) (apart : doc.Apart nodes) :
    Shows doc (doc.forest nodes) := by
  obtain ⟨holds, tops⟩ := wellFormed.holds_forest nodes
  exact ⟨wellFormed, holds, holds.ids_lt_size wellFormed (tops.symm ▸ used),
    holds.nodup_ids wellFormed (tops.symm ▸ apart)⟩

section edits
variable {doc : Document} {source : Forest (NodeId × NodeKind)}

/-- The changes for a tree extract its claimed elements, the topmost one last. -/
theorem extracted_tree (setup : Setup) {entry : NodeId × NodeKind}
    (listed : Listed doc (.tree entry source))
    (content : ∀ {inner : Document}, Listed inner source → ∃ anchorOf,
      setup.Extracted inner (setup.edited inner (setup.edits source))
        (source.idsOf setup.isClaimed) [] anchorOf) :
    ∃ anchorOf, setup.Extracted doc (setup.edited doc (setup.edits (.tree entry source)))
        ((Forest.tree entry source).idsOf setup.isClaimed) [] anchorOf ∧
      (setup.isClaimed entry.2 = true →
        (setup.edited doc (setup.edits (.tree entry source))).size = anchorOf entry.1 + 1) := by
  obtain ⟨used, kind⟩ := listed.head
  rw [edits_tree, Forest.idsOf_tree, isClaimed]
  cases template : setup.template? entry.2 with
  | none =>
      obtain ⟨anchorOf, extracted⟩ := content listed.below
      exact ⟨anchorOf, extracted, fun claimed => by contradiction⟩
  | some directive =>
      have claim : setup.isClaimed (doc.kind entry.1) = true := by
        rw [kind, isClaimed, template]
        rfl
      have outside : entry.1 ∉ source.idsOf setup.isClaimed :=
        fun member => listed.outside (Forest.mem_ids_of_mem_idsOf member)
      obtain ⟨anchorOf, inner⟩ := content (listed.below.takeChildren entry.1)
      have whole := (inner.taken claim used outside).anchored outside
      rw [Extracted.anchoring, kind] at whole
      have stepwise (last : Edit NodeId) :
          setup.edited doc (.takeContent entry.1 :: (setup.edits source ++ [last])) =
            Edit.apply setup.anchor
              (setup.edited (doc.takeChildren entry.1) (setup.edits source)) last :=
        edited_append _ [last]
      simp only [Option.isSome_some, if_true, stepwise]
      exact ⟨_, whole.1, fun _ => by rw [whole.2, Function.update_self]⟩

/-- The changes for a source extract its claimed elements. -/
theorem extracted_edits (listed : Listed doc source) : ∃ anchorOf,
    setup.Extracted doc (setup.edited doc (setup.edits source)) (source.idsOf setup.isClaimed) []
      anchorOf := by
  induction source generalizing doc with
  | nil => exact ⟨id, .refl listed.wellFormed⟩
  | cons entry below rest inner outer =>
      obtain ⟨anchorOf, first, -⟩ := setup.extracted_tree listed.tree inner
      obtain ⟨anchorOfRest, second⟩ := outer (listed.rest.extracted first)
      rw [edits_cons, edited_append, ← Forest.tree_append, Forest.idsOf_append]
      exact ⟨_, first.trans second⟩

end edits

/-- Where a walk stops: the element at fault, the nodes before it in document order, the elements
before it whose content was compiled, those whose content it is in, and the changes made. -/
structure Halt where
  culprit : NodeId × NodeKind
  before : List NodeId
  finished : List NodeId
  opened : List NodeId
  edits : List (Edit NodeId)

/-- The walk over a source stops at an element that fails. -/
inductive HaltsAt (setup : Setup) (fails : NodeKind → Prop) :
    Forest (NodeId × NodeKind) → Halt → Prop where
  | here {entry : NodeId × NodeKind} {below rest : Forest (NodeId × NodeKind)} :
      fails entry.2 → HaltsAt setup fails (.cons entry below rest) ⟨entry, [], [], [], []⟩
  | inside {entry : NodeId × NodeKind} {below rest : Forest (NodeId × NodeKind)} {halt : Halt} :
      setup.template? entry.2 = none → HaltsAt setup fails below halt →
      HaltsAt setup fails (.cons entry below rest)
        { halt with before := entry.1 :: halt.before }
  | opened {entry : NodeId × NodeKind} {below rest : Forest (NodeId × NodeKind)} {halt : Halt}
      {directive : DirectiveRef} :
      setup.template? entry.2 = some directive → HaltsAt setup fails below halt →
      HaltsAt setup fails (.cons entry below rest)
        { halt with
          before := entry.1 :: halt.before
          opened := entry.1 :: halt.opened
          edits := .takeContent entry.1 :: halt.edits }
  | beside {entry : NodeId × NodeKind} {below rest : Forest (NodeId × NodeKind)} {halt : Halt} :
      HaltsAt setup fails rest halt →
      HaltsAt setup fails (.cons entry below rest)
        { halt with
          before := (Forest.tree entry below).ids ++ halt.before
          finished := (Forest.tree entry below).reached.idsOf setup.isClaimed ++ halt.finished
          edits := setup.edits (Forest.tree entry below).reached ++ halt.edits }

/-- A walk that fails has stopped at an element, and has made the changes for what is before it. -/
theorem haltsAt_of_mark {viewOf : DirectiveRef → ComponentSource → Work Factory}
    {source : Forest (NodeId × NodeKind)} {stage last : Stage NodeId} {error : Error}
    (run : setup.mark viewOf source stage = .error error last) :
    ∃ halt, setup.HaltsAt (fun kind => setup.Fails viewOf kind error) source halt ∧
      last.edits = stage.edits ++ halt.edits := by
  induction source generalizing stage with
  | nil => cases run
  | cons entry below rest inner outer =>
      obtain ⟨node, kind⟩ := entry
      rw [mark_cons] at run
      rcases bind_eq_error run with halted | ⟨head, middle, first, following⟩
      · cases treeHalted halted with
        | here fails same => exact ⟨_, .here fails, by rw [same, List.append_nil]⟩
        | inside template same visiting =>
            obtain ⟨halt, halts, edits⟩ := inner visiting
            exact ⟨_, .inside template halts, by rw [edits, same]⟩
        | opened template same visiting =>
            obtain ⟨halt, halts, edits⟩ := inner visiting
            exact ⟨_, .opened template halts, by rw [edits, same, List.append_assoc]; rfl⟩
      · have edits := (markTree_visits (setup.viewsSound_trivial viewOf)
          (fun _ run => mark_visits (setup.viewsSound_trivial viewOf) trivial run) trivial first).edits
        rcases bind_eq_error following with visiting | ⟨tail, final, -, made⟩
        · obtain ⟨halt, halts, later⟩ := outer visiting
          exact ⟨_, .beside halts, by rw [later, edits, List.append_assoc]⟩
        · cases made

namespace HaltsAt

variable {fails : NodeKind → Prop} {source : Forest (NodeId × NodeKind)} {halt : Halt}

theorem fails_culprit (halts : setup.HaltsAt fails source halt) :
    fails halt.culprit.2 ∧ halt.culprit ∈ source.preorder := by
  induction halts with
  | here fault => exact ⟨fault, List.mem_cons_self⟩
  | inside _ _ induction =>
      exact ⟨induction.1, List.mem_cons_of_mem _ (List.mem_append_left _ induction.2)⟩
  | opened _ _ induction =>
      exact ⟨induction.1, List.mem_cons_of_mem _ (List.mem_append_left _ induction.2)⟩
  | beside _ induction =>
      exact ⟨induction.1, List.mem_cons_of_mem _ (List.mem_append_right _ induction.2)⟩

theorem position (halts : setup.HaltsAt fails source halt) :
    ∃ after, source.ids = halt.before ++ halt.culprit.1 :: after := by
  induction halts with
  | @here entry below rest _ => exact ⟨below.ids ++ rest.ids, Forest.ids_cons _ _ _⟩
  | @inside entry below rest _ _ _ induction =>
      obtain ⟨after, ids⟩ := induction
      exact ⟨after ++ rest.ids, by simp [Forest.ids_cons, ids]⟩
  | @opened entry below rest _ _ _ _ induction =>
      obtain ⟨after, ids⟩ := induction
      exact ⟨after ++ rest.ids, by simp [Forest.ids_cons, ids]⟩
  | @beside entry below rest _ _ induction =>
      obtain ⟨after, ids⟩ := induction
      refine ⟨after, ?_⟩
      rw [← Forest.tree_append, Forest.ids_append, ids, List.append_assoc]

theorem mem_before (halts : setup.HaltsAt fails source halt) {node : NodeId}
    (member : node ∈ halt.finished ∨ node ∈ halt.opened) : node ∈ halt.before := by
  induction halts with
  | here => rcases member with member | member <;> cases member
  | inside _ _ induction => exact List.mem_cons_of_mem _ (induction member)
  | opened _ _ induction =>
      rcases member with member | member
      · exact List.mem_cons_of_mem _ (induction (.inl member))
      · rcases List.mem_cons.mp member with rfl | member
        · exact List.mem_cons_self
        · exact List.mem_cons_of_mem _ (induction (.inr member))
  | beside _ induction =>
      rcases member with member | member
      · rcases List.mem_append.mp member with early | late
        · exact List.mem_append_left _
            ((Forest.ids_reached_sublist _).subset (Forest.mem_ids_of_mem_idsOf early))
        · exact List.mem_append_right _ (induction (.inl late))
      · exact List.mem_append_right _ (induction (.inr member))

theorem mem_ids (halts : setup.HaltsAt fails source halt) {node : NodeId}
    (member : node ∈ halt.finished ∨ node ∈ halt.opened) : node ∈ source.ids := by
  obtain ⟨after, ids⟩ := halts.position
  rw [ids]
  exact List.mem_append_left _ (halts.mem_before member)

/-- The element at fault lies in the content of the open elements. -/
theorem under_of_opened {doc : Document} (wellFormed : doc.WellFormed) (holds : doc.Holds source)
    (halts : setup.HaltsAt fails source halt) {node : NodeId} (member : node ∈ halt.opened) :
    doc.Under halt.culprit.1 node := by
  induction halts with
  | here => cases member
  | inside _ _ induction => exact induction holds.2.2.1 member
  | @opened entry below _ _ _ _ halts induction =>
      obtain ⟨_, children, belowHolds, _⟩ := holds
      rcases List.mem_cons.mp member with rfl | member
      · obtain ⟨top, among, lower⟩ := belowHolds.exists_below wellFormed
          (List.mem_map_of_mem halts.fails_culprit.2)
        rw [← children] at among
        exact .tail' lower (wellFormed.parent_of_mem among)
      · exact induction belowHolds member
  | beside _ induction => exact induction holds.2.2.2 member

/-- What a walk that fails has done: it has extracted what is before the element at fault, but for
the elements that this lies in. -/
theorem extracted {doc : Document} (listed : Listed doc source)
    (halts : setup.HaltsAt fails source halt) : ∃ anchorOf,
    setup.Extracted doc (setup.edited doc halt.edits) halt.finished halt.opened anchorOf := by
  induction halts generalizing doc with
  | here => exact ⟨id, .refl listed.wellFormed⟩
  | inside _ _ induction => exact induction listed.below
  | @opened entry below rest halt directive template halts induction =>
      obtain ⟨used, kind⟩ := listed.head
      have claim : setup.isClaimed (doc.kind entry.1) = true := by
        rw [kind, isClaimed, template]
        rfl
      obtain ⟨anchorOf, content⟩ := induction (listed.below.takeChildren entry.1)
      exact ⟨anchorOf, content.taken claim used fun member =>
        listed.outside (halts.mem_ids (.inl member))⟩
  | beside _ induction =>
      obtain ⟨anchorOf, first⟩ := extracted_edits listed.tree.reached
      obtain ⟨anchorOfRest, second⟩ := induction (listed.rest.extracted first)
      rw [edited_append]
      exact ⟨_, first.trans second⟩

end HaltsAt

namespace Extracted

variable {doc next : Document} {finished opened : List NodeId} {anchorOf : NodeId → NodeId}

/-! Parents, which the child lists determine. -/

section parents
variable (extracted : setup.Extracted doc next finished opened anchorOf)
include extracted

theorem children_of_new {node : NodeId} (new : doc.size ≤ node) : next.children node = [] := by
  rcases Nat.lt_or_ge node next.size with bound | unused
  · exact (extracted.new node new bound).2
  · exact children_of_size_le unused

/-- An old node is where it was, unless its parent has lost its content or an anchor has taken its
place. -/
theorem mem_children_iff (wellFormed : doc.WellFormed) {node parent : NodeId}
    (old : node < doc.size) : node ∈ next.children parent ↔ node ∈ doc.children parent ∧
      (parent ∉ finished ∧ parent ∉ opened) ∧
        ¬(node ∈ finished ∧ setup.isReplaced (doc.kind node) = true) := by
  have newer {owner : NodeId} (member : owner ∈ finished) : anchorOf owner ≠ node :=
    Nat.ne_of_gt (Nat.lt_of_lt_of_le old (extracted.anchors owner member).1)
  constructor
  · intro member
    rcases Nat.lt_or_ge parent doc.size with bound | new
    case inr =>
      rw [extracted.children_of_new new] at member
      cases member
    case inl =>
      rw [extracted.children parent bound] at member
      split at member
      next => cases member
      next spared =>
        split at member
        next done =>
          split at member
          next => cases member
          next => exact absurd (List.mem_singleton.mp member).symm (newer done)
        next left =>
          obtain ⟨child, inside, same⟩ := List.mem_map.mp member
          rw [standInAmong] at same
          split at same
          next both => exact absurd same (newer both.1)
          next neither =>
            subst same
            exact ⟨inside, ⟨left, spared⟩, neither⟩
  · rintro ⟨inside, ⟨left, spared⟩, neither⟩
    rw [extracted.children parent (wellFormed.parent_lt_size (wellFormed.parent_of_mem inside)),
      if_neg spared, if_neg left]
    exact List.mem_map.mpr ⟨node, inside, if_neg neither⟩

theorem parent?_eq (wellFormed : doc.WellFormed) {node : NodeId} (old : node < doc.size) :
    next.parent? node =
      if node ∈ finished ∧ setup.isReplaced (doc.kind node) = true then none
      else (doc.parent? node).filter fun parent => parent ∉ finished ∧ parent ∉ opened := by
  apply Option.ext
  intro parent
  rw [extracted.wellFormed.parent_iff, extracted.mem_children_iff wellFormed old,
    ← wellFormed.parent_iff]
  split
  next both => simp [both]
  next neither =>
    simp only [neither, not_false_eq_true, and_true, Option.filter_eq_some_iff,
      decide_eq_true_eq]

/-- No old node has come below another one. -/
theorem under_of_under (wellFormed : doc.WellFormed) {node ancestor : NodeId}
    (old : node < doc.size) (under : next.Under node ancestor) : doc.Under node ancestor := by
  have step {child parent : NodeId} (bound : child < doc.size)
      (attached : next.ChildOf child parent) : doc.ChildOf child parent :=
    wellFormed.parent_of_mem ((extracted.mem_children_iff wellFormed bound).mp
      (extracted.wellFormed.mem_of_parent attached)).1
  have run : doc.Under node ancestor ∧ ancestor < doc.size := by
    induction under with
    | single attached =>
        exact ⟨.single (step old attached), wellFormed.parent_lt_size (step old attached)⟩
    | tail _ attached induction =>
        obtain ⟨lower, bound⟩ := induction
        exact ⟨lower.tail (step bound attached), wellFormed.parent_lt_size (step bound attached)⟩
  exact run.1

end parents

end Extracted

end Setup

end ViewTemplates
