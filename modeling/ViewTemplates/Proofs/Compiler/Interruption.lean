import ViewTemplates.Proofs.Compiler.Walks
import ViewTemplates.Proofs.Document.Graft

/-!
What a compilation that fails leaves behind. It stops at an element, and what it has extracted stays
so: elements that come before that one in document order. Everything else is where it was.
-/

namespace ViewTemplates

open Document

/-! Nodes that stay in their order. -/

theorem filter_map_sublist {row : List NodeId} {bound : Nat} {place : NodeId → NodeId}
    (kept : ∀ node, place node = node ∨ bound ≤ place node) :
    ((row.map place).filter (· < bound)).Sublist row := by
  induction row with
  | nil => exact .slnil
  | cons node rest induction =>
      rw [List.map_cons]
      rcases kept node with same | new
      · rw [same, List.filter_cons]
        split
        · exact induction.cons_cons node
        · exact induction.cons node
      · rw [List.filter_cons_of_neg (by simpa using new)]
        exact induction.cons node

/-- If the old children of every node are some of those that it had, then the old nodes of a forest
are some of those that it had, in the same order. -/
theorem Document.Holds.ids_sublist {doc next : Document} {bound : Nat}
    (bare : ∀ node, bound ≤ node → next.children node = [])
    (fewer : ∀ node < bound, ((next.children node).filter (· < bound)).Sublist (doc.children node))
    {forest other : Forest (NodeId × NodeKind)} (holds : next.Holds forest)
    (again : doc.Holds other)
    (tops : (forest.tops.filter (· < bound)).Sublist other.tops) :
    (forest.ids.filter (· < bound)).Sublist other.ids := by
  induction forest generalizing other with
  | nil => exact List.nil_sublist _
  | cons entry below rest inner outer =>
      obtain ⟨-, children, belowHolds, restHolds⟩ := holds
      rw [Forest.ids_cons]
      rw [Forest.tops, Forest.roots, List.map_cons] at tops
      rcases Nat.lt_or_ge entry.1 bound with old | new
      · rw [List.filter_cons_of_pos (by simpa using old)] at tops
        rw [List.filter_cons_of_pos (by simpa using old), List.filter_append]
        -- The first node is one of the other row: those before it there are skipped.
        induction other with
        | nil => cases tops
        | cons otherEntry otherBelow otherRest _ skip =>
            obtain ⟨-, otherChildren, otherBelowHolds, otherRestHolds⟩ := again
            rw [Forest.ids_cons]
            rcases List.sublist_cons_iff.mp tops with later | ⟨row, equal, tops⟩
            · exact ((skip otherRestHolds later).trans (List.sublist_append_right _ _)).cons _
            · obtain ⟨same, rfl⟩ := List.cons.inj equal
              have belowTops := fewer entry.1 old
              rw [children, same, otherChildren] at belowTops
              rw [same]
              exact ((inner belowHolds otherBelowHolds belowTops).append
                (outer restHolds otherRestHolds tops)).cons_cons _
      · rw [List.filter_cons_of_neg (by simpa using new)] at tops
        rw [bare entry.1 new] at children
        cases below with
        | nil =>
            rw [List.filter_cons_of_neg (by simpa using new)]
            exact outer restHolds again tops
        | cons => cases children

namespace Setup

variable {setup : Setup}

theorem Fails.isElement {viewOf : DirectiveRef → ComponentSource → Work Factory} {kind : NodeKind}
    {error : Error} (fails : setup.Fails viewOf kind error) : kind.isElement = true := by
  cases leaf : kind.isElement with
  | true => rfl
  | false =>
      have none := claims_of_not_isElement setup leaf
      cases fails with
      | conflict claims =>
          rw [none] at claims
          contradiction
      | view claims =>
          rw [none] at claims
          contradiction

/-- After an extraction, the old nodes of a forest are some of those that it had. -/
theorem Extracted.ids_sublist {doc next : Document} {finished : List NodeId}
    {anchorOf : NodeId → NodeId} (extracted : setup.Extracted doc next finished [] anchorOf)
    (wellFormed : doc.WellFormed) (nodes : List NodeId) :
    ((next.forest nodes).ids.filter (· < doc.size)).Sublist (doc.forest nodes).ids := by
  obtain ⟨holds, tops⟩ := wellFormed.holds_forest nodes
  obtain ⟨holdsNext, topsNext⟩ := extracted.wellFormed.holds_forest nodes
  have anchor {node : NodeId} (member : node ∈ finished) : ¬anchorOf node < doc.size :=
    Nat.not_lt.mpr (extracted.anchors node member).1
  apply Document.Holds.ids_sublist (fun _ => extracted.children_of_new) _ holdsNext holds
  · rw [tops, topsNext]
    exact List.filter_sublist
  · intro node old
    rw [extracted.children node old, if_neg List.not_mem_nil]
    split
    next done =>
      split
      next => exact List.nil_sublist _
      next =>
        rw [List.filter_cons_of_neg (by simpa using anchor done)]
        exact List.nil_sublist _
    next =>
      apply filter_map_sublist
      intro child
      rw [standInAmong]
      split
      next both => exact .inr (extracted.anchors child both.1).1
      next => exact .inl rfl

section
variable {viewOf : DirectiveRef → ComponentSource → Work Factory} {node : ι}
  {below rest : Forest (ι × NodeKind)} {stage last : Stage ι} {error : Error}

theorem mark_of_conflict {name : String} {attributes : Attributes}
    (conflict : soleClaim name (setup.registry.matching name attributes) = .error error) :
    setup.mark viewOf (.cons (node, .element name attributes) below rest) stage =
      .error error stage := by
  rw [mark, conflict]
  rfl

theorem mark_of_template_error {kind : NodeKind} {directive : DirectiveRef}
    (isElement : kind.isElement = true)
    (claimed : setup.claims kind = [.template directive])
    (stopped : setup.mark viewOf below
      { stage with edits := stage.edits ++ [.takeContent node] } = .error error last) :
    setup.mark viewOf (.cons (node, kind) below rest) stage = .error error last := by
  have taken : Marking.edit (.takeContent node) stage =
      .ok () { stage with edits := stage.edits ++ [.takeContent node] } := rfl
  have tree : setup.markTree viewOf node kind below stage = .error error last := by
    simp only [markTree, isElement, claimed]
    rw [bind_of_ok taken, bind_of_error stopped]
  rw [mark_cons, bind_of_error tree]

end

end Setup

namespace Compiler

variable {compiler : Compiler} {doc next : Document} {nodes : List NodeId} {error : Error}

theorem compileNode_halts {site last : Site} {node : NodeId}
    (run : compiler.compileNode node site = .error error last) :
    ∃ halt, compiler.setup.HaltsAt (fun kind => compiler.setup.Fails compiler.viewOf kind error)
        (site.doc.forest [node]) halt ∧
      last.doc = compiler.setup.edited site.doc halt.edits := by
  rw [compileNode] at run
  split at run
  next stage marked =>
    obtain ⟨halt, halts, edits⟩ := Setup.haltsAt_of_mark marked
    rw [List.nil_append] at edits
    cases run
    exact ⟨halt, halts, by rw [← edits]; rfl⟩
  · cases run

theorem compile_eq_error (failure : (compiler.compile doc nodes).1.outcome = .error error) :
    ∃ site, compiler.compileEach nodes ⟨compiler.start, doc⟩ = .error error site ∧
      (compiler.compile doc nodes).2 = site.doc := by
  rw [compile, onDocument] at failure ⊢
  cases run : compiler.compileNodes nodes ⟨compiler.start, doc⟩ with
  | ok found site =>
      rw [run] at failure
      cases failure
  | error found site =>
      rw [run] at failure
      cases failure
      rcases bind_eq_error run with walking | ⟨found, middle, -, made⟩
      · exact ⟨site, walking, rfl⟩
      · cases made

theorem compile_of_error {site : Site}
    (run : compiler.compileEach nodes ⟨compiler.start, doc⟩ = .error error site) :
    compiler.compile doc nodes =
      (⟨.error error, compiler.stop site.progress, site.progress.events⟩, site.doc) := by
  rw [compile, onDocument, compileNodes, bind_of_error run]

theorem compileNode_of_isOk {node : NodeId}
    (succeeds : (compiler.compile doc [node]).1.outcome.isOk = true) :
    ∃ value site, compiler.compileNode node ⟨compiler.start, doc⟩ = .ok value site ∧
      (compiler.compile doc [node]).2 = site.doc := by
  obtain ⟨compiled, success⟩ := exists_of_isOk succeeds
  obtain ⟨marks, site, walk, last, -⟩ := compile_eq_ok success
  obtain ⟨value, middle, run, following⟩ := bind_eq_ok walk
  obtain ⟨none, final, empty, made⟩ := bind_eq_ok following
  cases empty
  injection made with _ ended
  exact ⟨value, middle, run, last.trans (congrArg Site.doc ended.symm)⟩

/-- The compilation stopped at an element, and what was extracted by then, or begun to be, comes
before it in document order. -/
structure Halted (compiler : Compiler) (doc next : Document) (nodes : List NodeId) (error : Error)
    (before : List NodeId) (culprit : NodeId) (finished opened : List NodeId)
    (anchorOf : NodeId → NodeId) : Prop where
  position : ∃ after, (doc.forest nodes).ids = before ++ culprit :: after
  fault : compiler.setup.Fails compiler.viewOf (doc.kind culprit) error
  done : ∀ node ∈ finished, node ∈ before
  begun : ∀ node ∈ opened, node ∈ before ∧ doc.Under culprit node
  extracted : compiler.setup.Extracted doc next finished opened anchorOf

theorem halted_of_compileNode {site last : Site} (wellFormed : site.doc.WellFormed) {node : NodeId}
    (used : node < site.doc.size) (run : compiler.compileNode node site = .error error last) :
    ∃ before culprit finished opened anchorOf,
      compiler.Halted site.doc last.doc [node] error before culprit finished opened anchorOf := by
  have listed := (Setup.shows_of_apart wellFormed (List.forall_mem_singleton.mpr used)
    (List.pairwise_singleton _ _)).listed
  obtain ⟨halt, halts, edited⟩ := compileNode_halts run
  obtain ⟨anchorOf, extracted⟩ := halts.extracted listed
  obtain ⟨fails, member⟩ := halts.fails_culprit
  rw [← edited] at extracted
  refine ⟨halt.before, halt.culprit.1, halt.finished, halt.opened, anchorOf, halts.position, ?_,
    fun node member => halts.mem_before (.inl member),
    fun node member => ⟨halts.mem_before (.inr member),
      halts.under_of_opened wellFormed (wellFormed.holds_forest _).1 member⟩, extracted⟩
  rw [(listed.known _ member).2]
  exact fails

/-- A compilation that stops after another node was compiled stops at an element that was there
before, and that comes behind those that were. -/
theorem Halted.after {middle : Document} {node : NodeId} {rest before : List NodeId}
    {culprit : NodeId} {finished later opened : List NodeId}
    {anchorOf anchorOfRest : NodeId → NodeId} (wellFormed : doc.WellFormed)
    (first : compiler.setup.Extracted doc middle finished [] anchorOf)
    (within : ∀ done ∈ finished, done ∈ (doc.forest [node]).ids)
    (halted : compiler.Halted middle next rest error before culprit later opened anchorOfRest) :
    ∃ place anchors, compiler.Halted doc next (node :: rest) error place culprit
      (finished ++ later) opened anchors := by
  obtain ⟨after, position⟩ := halted.position
  have fault := halted.fault
  have old : culprit < doc.size := by
    apply Nat.lt_of_not_le
    intro new
    have element := fault.isElement
    rcases Nat.lt_or_ge culprit middle.size with bound | unused
    · rw [(first.new culprit new bound).1] at element
      contradiction
    · rw [kind_of_size_le unused] at element
      contradiction
  rw [first.kind culprit old] at fault
  have order := first.ids_sublist wellFormed rest
  rw [position, List.filter_append, List.filter_cons_of_pos (by simpa using old),
    List.append_sublist_iff] at order
  obtain ⟨front, back, whole, early, late⟩ := order
  obtain ⟨upTo, beyond, split, among, -⟩ := List.cons_sublist_iff.mp late
  obtain ⟨skipped, others, again⟩ := List.append_of_mem among
  have kept {done : NodeId} (member : done ∈ before) (bound : done < doc.size) :
      done ∈ (doc.forest [node]).ids ++ (front ++ skipped) := by
    apply List.mem_append_right
    apply List.mem_append_left
    exact early.subset (List.mem_filter.mpr ⟨member, by simpa using bound⟩)
  refine ⟨(doc.forest [node]).ids ++ (front ++ skipped), _, ⟨others ++ beyond, ?_⟩, fault, ?_, ?_,
    first.trans halted.extracted⟩
  · rw [forest_cons, Forest.ids_append, whole, split, again]
    simp
  · intro done member
    rcases List.mem_append.mp member with early | late
    · exact List.mem_append_left _ (within done early)
    · exact kept (halted.done done late)
        (first.old_of_claimed halted.extracted (.inl late)).1
  · intro begun member
    obtain ⟨place, under⟩ := halted.begun begun member
    exact ⟨kept place (first.old_of_claimed halted.extracted (.inr member)).1,
      first.under_of_under wellFormed old under⟩

theorem halted_of_compileEach {site last : Site} (wellFormed : site.doc.WellFormed)
    (used : ∀ node ∈ nodes, node < site.doc.size)
    (run : compiler.compileEach nodes site = .error error last) :
    ∃ before culprit finished opened anchorOf,
      compiler.Halted site.doc last.doc nodes error before culprit finished opened anchorOf := by
  induction nodes generalizing site with
  | nil => cases run
  | cons node rest induction =>
      obtain ⟨here, later⟩ := List.forall_mem_cons.mp used
      rcases bind_eq_error run with stopped | ⟨⟨place, marks⟩, middle, compiled, following⟩
      · obtain ⟨before, culprit, finished, opened, anchorOf, halted⟩ :=
          halted_of_compileNode wellFormed here stopped
        obtain ⟨after, position⟩ := halted.position
        refine ⟨before, culprit, finished, opened, anchorOf,
          ⟨after ++ (site.doc.forest rest).ids, ?_⟩, halted.fault, halted.done, halted.begun,
          halted.extracted⟩
        rw [forest_cons, Forest.ids_append, position, List.append_assoc, List.cons_append]
      · rcases bind_eq_error following with stopped | ⟨found, last, -, made⟩
        · obtain ⟨anchorOf, first⟩ :=
            @Setup.extracted_edits compiler.setup _ _ (Setup.shows_of_apart wellFormed
              (List.forall_mem_singleton.mpr here) (List.pairwise_singleton _ _)).listed.reached
          obtain ⟨edited, -⟩ :=
            compileNode_visits (compiler.setup.viewsSound_trivial compiler.viewOf) trivial compiled
          rw [← edited] at first
          obtain ⟨before, culprit, later, opened, anchorOfRest, halted⟩ :=
            induction first.wellFormed
              (fun other member => Nat.lt_of_lt_of_le (later other member) first.size) stopped
          obtain ⟨place, anchors, whole⟩ := halted.after wellFormed first fun done member =>
            (Forest.ids_reached_sublist _).subset (Forest.mem_ids_of_mem_idsOf member)
          exact ⟨place, culprit, _, opened, anchors, whole⟩
        · cases made

/-- How a compilation that fails leaves the document. It stopped at an element, the culprit, and
before that in document order are the elements whose content went into a template, and those whose
content the culprit is in. A finished element has a new comment in it and nothing else, or has given
way to it; other old nodes have the parents and the children that they had. Nothing is said of what
was in the open elements. -/
structure Interrupted (compiler : Compiler) (doc next : Document) (nodes : List NodeId)
    (error : Error) (before : List NodeId) (culprit : NodeId) (finished opened : List NodeId)
    (anchorOf : NodeId → NodeId) : Prop where
  position : ∃ after, (doc.forest nodes).ids = before ++ culprit :: after
  fault : compiler.setup.Fails compiler.viewOf (doc.kind culprit) error
  done : ∀ node ∈ finished, node ∈ before ∧ compiler.setup.isClaimed (doc.kind node) = true ∧
    doc.size ≤ anchorOf node ∧ next.kind (anchorOf node) = compiler.setup.anchor
  begun : ∀ node ∈ opened, node ∈ before ∧ compiler.setup.isClaimed (doc.kind node) = true ∧
    doc.Under culprit node
  children : ∀ node < doc.size, node ∉ opened → next.children node =
    if node ∈ finished then
      if compiler.setup.isReplaced (doc.kind node) then [] else [anchorOf node]
    else (doc.children node).map (compiler.setup.standInAmong doc finished anchorOf)
  parent : ∀ node < doc.size, (∀ owner ∈ opened, node ∉ doc.children owner) →
    next.parent? node =
      if node ∈ finished ∧ compiler.setup.isReplaced (doc.kind node) = true then none
      else (doc.parent? node).filter (· ∉ finished)
  intact : (∀ node ∈ before, compiler.setup.isClaimed (doc.kind node) = false) →
    ∀ node < doc.size, next.parent? node = doc.parent? node ∧
      next.children node = doc.children node

theorem Halted.interrupted {before finished opened : List NodeId} {culprit : NodeId}
    {anchorOf : NodeId → NodeId} (wellFormed : doc.WellFormed)
    (halted : compiler.Halted doc next nodes error before culprit finished opened anchorOf) :
    compiler.Interrupted doc next nodes error before culprit finished opened anchorOf := by
  have extracted := halted.extracted
  constructor
  case position => exact halted.position
  case fault => exact halted.fault
  case done =>
    intro node member
    obtain ⟨new, bound⟩ := extracted.anchors node member
    exact ⟨halted.done node member, (extracted.claimed node (.inl member)).2, new,
      (extracted.new _ new bound).1⟩
  case begun =>
    intro node member
    obtain ⟨place, under⟩ := halted.begun node member
    exact ⟨place, (extracted.claimed node (.inr member)).2, under⟩
  case children =>
    intro node old left
    rw [extracted.children node old, if_neg left]
  case parent =>
    intro node old left
    rw [extracted.parent?_eq wellFormed old]
    cases attached : doc.parent? node with
    | none => rfl
    | some owner =>
        have spared : owner ∉ opened :=
          fun member => left owner member (wellFormed.mem_of_parent attached)
        simp [Option.filter, spared]
  case intact =>
    intro unclaimed
    have spared {node : NodeId} (member : node ∈ finished ∨ node ∈ opened) : False := by
      have place : node ∈ before := by
        rcases member with early | late
        · exact halted.done node early
        · exact (halted.begun node late).1
      have claim := (extracted.claimed node member).2
      rw [unclaimed node place] at claim
      contradiction
    obtain rfl : finished = [] := List.eq_nil_iff_forall_not_mem.mpr fun _ member =>
      spared (.inl member)
    obtain rfl : opened = [] := List.eq_nil_iff_forall_not_mem.mpr fun _ member =>
      spared (.inr member)
    intro node old
    constructor
    · rw [extracted.parent?_eq wellFormed old, if_neg (by simp)]
      cases doc.parent? node <;> rfl
    · simp [extracted.children node old, Setup.Extracted.standInAmong_nil]

/-- A compilation that fails has changed nothing but what it extracted before it stopped. -/
theorem compile_interrupted (wellFormed : doc.WellFormed) (used : ∀ node ∈ nodes, node < doc.size)
    (failure : (compiler.compile doc nodes).1.outcome = .error error) :
    ∃ before culprit finished opened anchorOf,
      compiler.Interrupted doc (compiler.compile doc nodes).2 nodes error before culprit finished
        opened anchorOf := by
  obtain ⟨site, run, last⟩ := compile_eq_error failure
  obtain ⟨before, culprit, finished, opened, anchorOf, halted⟩ :=
    halted_of_compileEach wellFormed used run
  rw [last]
  exact ⟨before, culprit, finished, opened, anchorOf, halted.interrupted wellFormed⟩

/-! A paragraph that can be compiled, and behind it one that two template directives claim. -/

def rivals : Registry := conditionals.adding ⟨"For", "[for]", .template⟩

def rivalClaims : Forest NodeKind :=
  .cons (.element "p" [("if", "")]) (.leaf (.text "a"))
    (.tree (.element "div" [("if", "")]) (.leaf (.element "q" [("if", ""), ("for", "")])))

theorem bare_rivalClaims : rivalClaims.Bare NodeKind.isContainer := by
  simp [rivalClaims, Forest.Bare, NodeKind.isContainer]

def rivalDocument : Document := (Document.empty.graft none rivalClaims).2

theorem wellFormed_rivalDocument : rivalDocument.WellFormed :=
  WellFormed.empty.graft rivalClaims bare_rivalClaims

theorem soleClaim_rivals :
    soleClaim "q" (rivals.matching "q" [("if", ""), ("for", "")]) =
      .error (.conflictingDirectives "q" "If" "For") := by
  have ordered : (rivals.index.accepting (.ofElement "q" [("if", ""), ("for", "")])).Pairwise
      fun left right => left.order ≤ right.order := by decide +kernel
  -- Two entries are found, and sorting them does not compute in the kernel.
  rw [Registry.matching, SelectorIndex.Lists.lookup_of_pairwise ordered]
  decide +kernel

theorem claims_rivals : ∃ directive,
    (Compiler.new rivals).setup.claims (.element "div" [("if", "")]) = [.template directive] := by
  have template : (Compiler.new rivals).setup.template? (.element "div" [("if", "")]) =
      some ⟨0, "If"⟩ := by decide +kernel
  rw [Setup.template?] at template
  split at template
  next directive claims => exact ⟨directive, claims⟩
  · cases template

/-- The paragraph is compiled as it is alone, and the other element has its content taken out. -/
theorem compile_rivals :
    ((Compiler.new rivals).compile rivalDocument [0, 2]).1.outcome =
        .error (.conflictingDirectives "q" "If" "For") ∧
      ((Compiler.new rivals).compile rivalDocument [0, 2]).2 =
        ((Compiler.new rivals).compile rivalDocument [0]).2.takeChildren 2 := by
  obtain ⟨value, middle, first, same⟩ :=
    @compileNode_of_isOk (Compiler.new rivals) rivalDocument 0 (by decide +kernel)
  have second : (Compiler.new rivals).compileNode 2 middle =
      .error (.conflictingDirectives "q" "If" "For")
        ⟨middle.progress, middle.doc.takeChildren 2⟩ := by
    have forest : middle.doc.forest [2] =
        .tree (2, .element "div" [("if", "")])
          (.leaf (3, .element "q" [("if", ""), ("for", "")])) := by
      rw [← same]
      decide +kernel
    obtain ⟨directive, claimed⟩ := claims_rivals
    rw [compileNode, forest, Forest.tree, Setup.mark_of_template_error rfl claimed
      (Setup.mark_of_conflict soleClaim_rivals)]
    rfl
  have whole : (Compiler.new rivals).compileEach [0, 2]
      ⟨(Compiler.new rivals).start, rivalDocument⟩ = .error _ _ :=
    (bind_of_ok first).trans (bind_of_error (bind_of_error second))
  rw [compile_of_error whole, same]
  exact ⟨rfl, rfl⟩

theorem compile_interrupted_rivalDocument :
    (∀ node ∈ [0, 2], node < rivalDocument.size) ∧
      ((Compiler.new rivals).compile rivalDocument [0, 2]).1.outcome =
        .error (.conflictingDirectives "q" "If" "For") ∧
      ∃ before culprit finished opened anchorOf,
        (Compiler.new rivals).Interrupted rivalDocument
          ((Compiler.new rivals).compile rivalDocument [0, 2]).2 [0, 2]
          (.conflictingDirectives "q" "If" "For") before culprit finished opened anchorOf := by
  have used : ∀ node ∈ [0, 2], node < rivalDocument.size := by
    have size : rivalDocument.size = 4 := by decide
    simp [size]
  exact ⟨used, compile_rivals.1,
    compile_interrupted wellFormed_rivalDocument used compile_rivals.1⟩

/-- A compilation that fails does not put back what it has extracted. -/
theorem extracted_by_failure :
    rivalDocument.WellFormed ∧
      ((Compiler.new rivals).compile rivalDocument [0, 2]).1.outcome =
        .error (.conflictingDirectives "q" "If" "For") ∧
      (rivalDocument.parent? 1, rivalDocument.children 0) = (some 0, [1]) ∧
      (((Compiler.new rivals).compile rivalDocument [0, 2]).2.parent? 1,
        ((Compiler.new rivals).compile rivalDocument [0, 2]).2.children 0) = (none, [4]) := by
  refine ⟨wellFormed_rivalDocument, compile_rivals.1, by decide, ?_⟩
  rw [compile_rivals.2]
  decide +kernel

end Compiler

end ViewTemplates
