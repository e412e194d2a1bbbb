import Mathlib.Data.List.TakeWhile
import ViewTemplates.Proofs.Document.Building

/-!
Where the nodes of markup stand. Each hangs below the element that is innermost among the open ones
at its token, and nothing is put below a node that was never open.
-/

namespace ViewTemplates

namespace Markup

/-- The nodes that tokens add, in their order. -/
def addedKinds (tokens : List Placed) : List NodeKind :=
  tokens.filterMap fun placed => placed.token.kind?

/-- The token opens an element. -/
def Token.isOpening : Token → Bool
  | startTag name _ selfClosing => !(selfClosing || isVoid name)
  | _ => false

/-- The open elements behind a token, the innermost first: a start tag adds its own, which has the
given number, and an end tag closes the innermost one of its name with all that is inside it. -/
def openBehind (node : NodeId) (opened : List (NodeId × String)) : Token → List (NodeId × String)
  | .startTag name _ selfClosing =>
      if selfClosing || isVoid name then opened else (node, name) :: opened
  | .endTag name =>
      match opened.dropWhile fun entry => !Text.sameLetters entry.2 name with
      | [] => opened
      | _ :: outer => outer
  | _ => opened

/-- The open elements behind a row of tokens, whose first node has the given number. -/
def openBehindAll (node : NodeId) (opened : List (NodeId × String)) :
    List Placed → List (NodeId × String)
  | [] => opened
  | placed :: rest =>
      openBehindAll (node + placed.token.kind?.toList.length) (openBehind node opened placed.token)
        rest

/-- The innermost open element, or the root. -/
def innermost (root : NodeId) (opened : List (NodeId × String)) : NodeId :=
  (opened.head?.map Prod.fst).getD root

theorem length_addedKinds_cons (placed : Placed) (rest : List Placed) :
    (addedKinds (placed :: rest)).length =
      placed.token.kind?.toList.length + (addedKinds rest).length := by
  rw [addedKinds, List.filterMap_cons]
  cases placed.token.kind? with
  | none => simp [addedKinds]
  | some kind => simp [addedKinds, Nat.add_comm]

/-- An end tag finds its element where a search from the innermost one finds it. -/
theorem openBehind_endTag (node : NodeId) (opened : List (NodeId × String)) (name : String) :
    openBehind node opened (.endTag name) =
      ((opened.findIdx? fun entry => Text.sameLetters entry.2 name).map fun depth =>
        opened.drop (depth + 1)).getD opened := by
  rw [openBehind]
  cases found : opened.findIdx? fun entry => Text.sameLetters entry.2 name with
  | none =>
      have all : opened.dropWhile (fun entry => !Text.sameLetters entry.2 name) = [] := by
        rw [List.dropWhile_eq_nil_iff]
        simpa using List.findIdx?_eq_none_iff.mp found
      rw [all]
      rfl
  | some depth =>
      obtain ⟨inside, place⟩ := List.findIdx?_eq_some_iff_findIdx_eq.mp found
      have left : opened.dropWhile (fun entry => !Text.sameLetters entry.2 name) =
          opened[depth] :: opened.drop (depth + 1) := by
        rw [List.dropWhile_eq_drop_findIdx_not]
        simp only [Bool.not_not, place, List.drop_eq_getElem_cons inside]
      rw [left]
      rfl

theorem mem_openBehind {node : NodeId} {opened : List (NodeId × String)} {token : Token}
    {entry : NodeId × String} (member : entry ∈ openBehind node opened token) :
    entry ∈ opened ∨ (entry.1 = node ∧ token.isOpening = true) := by
  cases token with
  | text => exact .inl member
  | comment => exact .inl member
  | startTag name attributes selfClosing =>
      rw [openBehind] at member
      split at member
      next => exact .inl member
      next opens =>
        rcases List.mem_cons.mp member with rfl | earlier
        · exact .inr ⟨rfl, by simpa [Token.isOpening] using opens⟩
        · exact .inl earlier
  | endTag name =>
      rw [openBehind] at member
      split at member
      next => exact .inl member
      next first outer left =>
        have part := List.dropWhile_suffix (l := opened) fun entry =>
          !Text.sameLetters entry.2 name
        rw [left] at part
        exact .inl (part.subset (List.mem_cons_of_mem _ member))

end Markup

namespace Building

open Markup

variable {doc : Document} {nesting : Nesting} {building next last : Building}

/-- A node that was appended, and what this leaves. -/
structure Appended (building next : Building) : Prop where
  root : next.root = building.root
  opened : next.opened = building.opened
  size : next.doc.size = building.doc.size + 1
  attached : next.doc.parent? building.doc.size = some building.container
  parent : ∀ node < building.doc.size, next.doc.parent? node = building.doc.parent? node
  children : ∀ node, node ≠ building.container →
    next.doc.children node = building.doc.children node

theorem appended_of_append {kind : NodeKind}
    (appended : building.append (building.doc.create kind) = .ok next) :
    building.Appended next := by
  rw [append, Document.appendChild, Document.insertBefore] at appended
  have detached : (building.doc.create kind).remove building.doc.size =
      building.doc.create kind := by
    rw [Document.remove, Document.parent?_create, Document.parent?_of_size_le (Nat.le_refl _)]
  split at appended
  next => cases appended
  next out inserted =>
    cases appended
    split at inserted
    next => cases inserted
    split at inserted
    next => cases inserted
    rw [if_neg (by simp)] at inserted
    simp only [Option.any_none, Bool.false_eq_true, if_false, detached, Document.place] at inserted
    cases inserted
    constructor
    case root => rfl
    case opened => rfl
    case size => simp
    case attached => simp [Document.parent?_setParent]
    case parent =>
      intro node old
      simp [Document.parent?_setParent, Nat.ne_of_gt old]
    case children =>
      intro node other
      simp [Document.children_setChildren, Ne.symm other]

/-- What a token does: it may add a node below the innermost open element, and opens and closes
elements. -/
structure Advanced (building : Building) (placed : Placed) (next : Building) : Prop where
  root : next.root = building.root
  opened : next.opened = openBehind building.doc.size building.opened placed.token
  size : next.doc.size = building.doc.size + placed.token.kind?.toList.length
  attached : placed.token.kind? ≠ none →
    next.doc.parent? building.doc.size = some building.container
  parent : ∀ node < building.doc.size, next.doc.parent? node = building.doc.parent? node
  children : ∀ node, node ≠ building.container →
    next.doc.children node = building.doc.children node

theorem Appended.advanced {placed : Placed} (appended : building.Appended next)
    (adds : placed.token.kind?.toList.length = 1)
    (same : openBehind building.doc.size building.opened placed.token = building.opened) :
    building.Advanced placed next :=
  ⟨appended.root, appended.opened.trans same.symm, adds ▸ appended.size,
    fun _ => appended.attached, appended.parent, appended.children⟩

theorem advanced_of_consume {placed : Placed} {events : List Event}
    (lexical : ∀ kind, placed.token.kind? = some kind → kind.Lexical)
    (consumed : building.consume placed = .ok (next, events)) :
    building.Advanced placed next := by
  unfold consume at consumed
  cases token : placed.token with
  | text value =>
      simp only [token] at consumed
      split at consumed
      next => cases consumed
      next appended =>
        cases consumed
        exact (appended_of_append appended).advanced (by rw [token]; rfl) (by rw [token]; rfl)
  | comment value =>
      simp only [token] at consumed
      split at consumed
      next => cases consumed
      next appended =>
        cases consumed
        exact (appended_of_append appended).advanced (by rw [token]; rfl) (by rw [token]; rfl)
  | startTag name attributes selfClosing =>
      rw [token] at lexical
      obtain ⟨-, wellNamed⟩ := lexical _ rfl
      simp only [token, Document.createElement_eq _ _ wellNamed.distinct] at consumed
      split at consumed
      next => cases consumed
      next out appended =>
        have appended := appended_of_append appended
        split at consumed
        next closed =>
          cases consumed
          exact appended.advanced (by rw [token]; rfl) (by rw [token, openBehind, if_pos closed])
        next opens =>
          cases consumed
          refine ⟨appended.root, ?_, by rw [token]; exact appended.size,
            fun _ => appended.attached, appended.parent, appended.children⟩
          rw [token, openBehind, if_neg opens]
          exact congrArg _ appended.opened
  | endTag name =>
      simp only [token] at consumed
      have closes := openBehind_endTag building.doc.size building.opened name
      rw [← token] at closes
      split at consumed
      next depth found =>
        cases consumed
        rw [found] at closes
        exact ⟨rfl, closes.symm, by rw [token]; rfl, fun adds => absurd (by rw [token]; rfl) adds,
          fun _ _ => rfl, fun _ _ => rfl⟩
      next found =>
        cases consumed
        rw [found] at closes
        exact ⟨rfl, closes.symm, by rw [token]; rfl, fun adds => absurd (by rw [token]; rfl) adds,
          fun _ _ => rfl, fun _ _ => rfl⟩

/-- The root and the open elements are nodes of the document. -/
structure Grounded (building : Building) : Prop where
  root : building.root < building.doc.size
  opened : ∀ entry ∈ building.opened, entry.1 < building.doc.size

theorem Grounded.start (doc : Document) : (start doc).Grounded where
  root := by simp [Building.start]
  opened := nofun

theorem Advanced.grounded {placed : Placed} (advanced : building.Advanced placed next)
    (grounded : building.Grounded) : next.Grounded where
  root := by
    rw [advanced.root, advanced.size]
    exact Nat.lt_add_right _ grounded.root
  opened := by
    intro entry member
    rw [advanced.size]
    rw [advanced.opened] at member
    rcases mem_openBehind member with earlier | ⟨new, opens⟩
    · exact Nat.lt_add_right _ (grounded.opened entry earlier)
    · have adds : placed.token.kind?.toList.length = 1 := by
        cases token : placed.token <;> simp [token, Token.isOpening, Token.kind?] at opens ⊢
      rw [new, adds]
      exact Nat.lt_succ_self _

theorem ne_container {node : NodeId} (notRoot : node ≠ building.root)
    (notOpen : ∀ entry ∈ building.opened, entry.1 ≠ node) : node ≠ building.container := by
  rw [container]
  cases opened : building.opened with
  | nil => exact notRoot
  | cons entry outer => exact Ne.symm (notOpen entry (opened ▸ List.mem_cons_self))

/-- What a row of tokens does: each node hangs where its token put it, and has no children unless
its token opened it. -/
structure Ran (building : Building) (tokens : List Placed) (last : Building) : Prop where
  parent : ∀ node < building.doc.size, last.doc.parent? node = building.doc.parent? node
  children : ∀ node < building.doc.size, node ≠ building.root →
    (∀ entry ∈ building.opened, entry.1 ≠ node) →
    last.doc.children node = building.doc.children node
  attached : ∀ earlier placed later, tokens = earlier ++ placed :: later →
    placed.token.kind? ≠ none →
    last.doc.parent? (building.doc.size + (addedKinds earlier).length) =
      some (innermost building.root (openBehindAll building.doc.size building.opened earlier))
  empty : ∀ earlier placed later, tokens = earlier ++ placed :: later →
    placed.token.kind? ≠ none → placed.token.isOpening = false →
    last.doc.children (building.doc.size + (addedKinds earlier).length) = []

namespace Ran

theorem nil (building : Building) : building.Ran [] building where
  parent _ _ := rfl
  children _ _ _ _ := rfl
  attached earlier placed later split := by cases earlier <;> cases split
  empty earlier placed later split := by cases earlier <;> cases split

theorem cons {placed : Placed} {rest : List Placed} (grounded : building.Grounded)
    (step : building.Advanced placed next) (run : next.Ran rest last) :
    building.Ran (placed :: rest) last := by
  have larger : building.doc.size ≤ next.doc.size := by
    rw [step.size]
    exact Nat.le_add_right ..
  have grows (adds : placed.token.kind? ≠ none) : building.doc.size < next.doc.size := by
    obtain ⟨kind, made⟩ := Option.ne_none_iff_exists'.mp adds
    rw [step.size, made]
    exact Nat.lt_succ_self _
  have move (earlier : List Placed) : next.doc.size + (addedKinds earlier).length =
      building.doc.size + (addedKinds (placed :: earlier)).length := by
    rw [step.size, length_addedKinds_cons, Nat.add_assoc]
  constructor
  case parent =>
    intro node old
    rw [run.parent node (Nat.lt_of_lt_of_le old larger), step.parent node old]
  case children =>
    intro node old notRoot notOpen
    rw [run.children node (Nat.lt_of_lt_of_le old larger) (step.root ▸ notRoot) ?_,
      step.children node (ne_container notRoot notOpen)]
    intro entry member
    rw [step.opened] at member
    rcases mem_openBehind member with earlier | ⟨new, -⟩
    · exact notOpen entry earlier
    · rw [new]
      exact Nat.ne_of_gt old
  case attached =>
    intro earlier other later split adds
    cases earlier with
    | nil =>
        cases split
        rw [addedKinds, List.filterMap_nil, List.length_nil, Nat.add_zero,
          run.parent _ (grows adds), step.attached adds]
        rfl
    | cons first earlier =>
        cases split
        rw [← move, run.attached earlier other later rfl adds, openBehindAll, step.root,
          step.opened, step.size]
  case empty =>
    intro earlier other later split adds closed
    cases earlier with
    | nil =>
        cases split
        have fresh : ∀ entry ∈ building.opened, entry.1 ≠ building.doc.size :=
          fun entry member => Nat.ne_of_lt (grounded.opened entry member)
        have apart := Nat.ne_of_gt grounded.root
        rw [addedKinds, List.filterMap_nil, List.length_nil, Nat.add_zero,
          run.children _ (grows adds) (step.root ▸ apart) ?_,
          step.children _ (ne_container apart fresh),
          Document.children_of_size_le (Nat.le_refl _)]
        intro entry member
        rw [step.opened] at member
        rcases mem_openBehind member with earlier | ⟨-, opens⟩
        · exact fresh entry earlier
        · rw [closed] at opens
          cases opens
    | cons first earlier =>
        cases split
        rw [← move]
        exact run.empty earlier other later rfl adds closed

end Ran

theorem ran_of_consumeAll (grounded : building.Grounded) {tokens : List Placed}
    (lexical : ∀ placed ∈ tokens, ∀ kind, placed.token.kind? = some kind → kind.Lexical)
    {events : List Event} (ran : building.consumeAll tokens = .ok (last, events)) :
    building.Ran tokens last := by
  induction tokens generalizing building events with
  | nil =>
      cases ran
      exact .nil _
  | cons placed rest induction =>
      rw [consumeAll] at ran
      split at ran
      next => cases ran
      next next earlierEvents consumed =>
        split at ran
        next => cases ran
        next laterEvents ran =>
          cases ran
          have step := advanced_of_consume (lexical placed List.mem_cons_self) consumed
          exact .cons grounded step (induction (step.grounded grounded)
            (fun other member => lexical other (List.mem_cons_of_mem _ member)) ran)

end Building

namespace Document

open Markup

/-- A forest that stands in the document is read off it whole, where the limit is not met. -/
theorem Holds.forestWithin_eq {doc : Document} {forest : Forest (NodeId × NodeKind)}
    (holds : doc.Holds forest) {limit : Nat} (enough : forest.preorder.length < limit) :
    doc.forestWithin limit forest.tops = forest := by
  induction forest generalizing limit with
  | nil =>
      cases limit with
      | zero => contradiction
      | succ limit => rfl
  | cons entry below rest inner outer =>
      obtain ⟨kind, children, belowHolds, restHolds⟩ := holds
      cases limit with
      | zero => contradiction
      | succ limit =>
          rw [Forest.preorder, List.length_cons, List.length_append] at enough
          have first : doc.forestWithin limit below.tops = below := inner belowHolds (by omega)
          have later : doc.forestWithin (limit + 1) rest.tops = rest := outer restHolds (by omega)
          rw [← children] at first
          rw [forestWithin] at later ⊢
          rw [Forest.tops, Forest.roots, List.map_cons, List.foldr_cons, kind, first, later]

theorem preorder_numbered (first : Nat) (forest : Forest α) : (forest.numbered first).preorder =
    (List.range' first forest.preorder.length).zip forest.preorder := by
  apply List.zip_of_prod
  · exact Forest.ids_numbered first forest
  · rw [← Forest.preorder_map, Forest.map_snd_numbered]

theorem children_adopt (doc : Document) (forest : Forest NodeKind) :
    (doc.adopt forest).2.children doc.size = (doc.adopt forest).1 := by
  have inside : doc.size < ((doc.create .fragment).graft (some doc.size) forest).2.size := by
    rw [size_graft, size_create]
    omega
  rw [adopt]
  dsimp only
  rw [children_setChildren, if_pos ⟨rfl, inside⟩]

/-- What the tokens of a markup text make of a document: a new fragment and one node for each token
that has one, in the order of the tokens. Each hangs below the innermost element that is open at its
token, or below the fragment, and only what a token opened has children. -/
structure Grown (doc : Document) (tokens : List Placed) (next : Document) : Prop where
  size : next.size = doc.size + 1 + (addedKinds tokens).length
  kept : ∀ node < doc.size, next.records[node]? = doc.records[node]?
  order : (next.forest [doc.size]).preorder =
    (List.range' doc.size ((addedKinds tokens).length + 1)).zip (.fragment :: addedKinds tokens)
  detached : next.parent? doc.size = none
  attached : ∀ earlier placed later, tokens = earlier ++ placed :: later →
    placed.token.kind? ≠ none →
    next.parent? (doc.size + 1 + (addedKinds earlier).length) =
      some (innermost doc.size (openBehindAll (doc.size + 1) [] earlier))
  empty : ∀ earlier placed later, tokens = earlier ++ placed :: later →
    placed.token.kind? ≠ none → placed.token.isOpening = false →
    next.children (doc.size + 1 + (addedKinds earlier).length) = []

theorem grown_of_tokenize (doc : Document) {source : String} {tokens : List Placed}
    (read : tokenize source = .ok tokens) :
    ∃ next, doc.build source = .ok (next.children doc.size, next, (nest tokens).2) ∧
      doc.parse source = .ok (next.children doc.size, next, (nest tokens).2) ∧
      doc.Grown tokens next := by
  obtain ⟨building, events, consumed, follows, built⟩ := doc.build_of_tokenize read
  have lexical := lexical_of_tokensFrom (tokenize_eq_ok.mp read)
  have ran := Building.ran_of_consumeAll (.start doc) lexical consumed
  have kinds : (nest tokens).1.preorder = addedKinds tokens := preorder_nest tokens
  have adopted : building.doc = (doc.adopt (nest tokens).1).2 := follows.built
  have grafted := adopted
  rw [adopt_eq] at grafted
  have size : building.doc.size = doc.size + 1 + (addedKinds tokens).length := by
    rw [adopted, size_adopt, kinds]
  have first : (Building.start doc).doc.size = doc.size + 1 := size_create ..
  refine ⟨building.doc, built, by rw [parse, Markup.parse, read, adopted, children_adopt], ?_⟩
  constructor
  case size => exact size
  case kept =>
    intro node old
    rw [grafted, records_graft doc none _ old]
  case order =>
    let whole : Forest NodeKind := .tree .fragment (nest tokens).1
    have length : whole.preorder.length = (addedKinds tokens).length + 1 := by
      rw [← kinds, Forest.preorder, Forest.preorder, List.append_nil, List.length_cons]
    have holds : building.doc.Holds (whole.numbered doc.size) := by
      rw [grafted]
      exact (recorded_graft doc none whole).holds
    have enough : (whole.numbered doc.size).preorder.length < building.doc.size + 1 := by
      rw [Forest.length_numbered, length, size]
      omega
    have read : building.doc.forest [doc.size] = whole.numbered doc.size :=
      holds.forestWithin_eq enough
    rw [read, preorder_numbered, length, Forest.preorder, Forest.preorder, List.append_nil, kinds]
  case detached =>
    have fresh := ran.parent doc.size (by rw [first]; exact Nat.lt_succ_self _)
    rw [fresh, Building.start, parent?_create, parent?_of_size_le (Nat.le_refl _)]
  case attached => exact first ▸ ran.attached
  case empty => exact first ▸ ran.empty

/-- Markup is refused only where it has no tokens, and then the document stays as it is. Otherwise
building it token by token meets no fault, and gives what reading it at once gives. -/
theorem build_grows (doc : Document) (source : String) :
    match tokenize source with
    | .error error =>
        doc.build source = .error (.malformed error, doc) ∧ doc.parse source = .error error
    | .ok tokens => ∃ nodes next events, doc.build source = .ok (nodes, next, events) ∧
        doc.parse source = .ok (nodes, next, events) ∧ nodes = next.children doc.size ∧
        doc.Grown tokens next := by
  cases read : tokenize source with
  | error error => exact ⟨by rw [build, read], by rw [parse, Markup.parse, read]⟩
  | ok tokens =>
      obtain ⟨next, built, parsed, grown⟩ := doc.grown_of_tokenize read
      exact ⟨_, next, _, built, parsed, rfl, grown⟩

end Document

end ViewTemplates
