import ViewTemplates.Proofs.Markup.Lexemes
import ViewTemplates.Proofs.Markup.Normal

/-!
End tags that match no open element. They change nothing but which texts stand side by side: without
them the text is read as the same tokens with those texts joined, and nesting these gives the forest
with its texts joined.
-/

namespace ViewTemplates.Markup

/-! Nestings with joined texts. -/

def Opened.joined (frame : Opened) : Opened := { frame with left := frame.left.joined }

namespace Nesting

def joined (nesting : Nesting) : Nesting :=
  ⟨nesting.opened.map Opened.joined, nesting.inside.joined⟩

/-- No text that comes later joins one that stands inside. -/
def Settled (inside : Forest NodeKind) : Prop :=
  ∀ tail, (inside ++ tail).joined = inside.joined ++ tail.joined

theorem settled_append_tree {kind : NodeKind} (plain : kind.isText = false)
    (left below : Forest NodeKind) : Settled (left ++ .tree kind below) := by
  intro tail
  rw [Forest.append_assoc, Forest.tree_append, Forest.joined_append_cons plain,
    Forest.joined_append_cons plain, Forest.append_assoc]
  rfl

theorem joined_enclose (opened : List Opened) (inside : Forest NodeKind) :
    (enclose opened inside).joined = enclose (opened.map Opened.joined) inside.joined := by
  induction opened generalizing inside with
  | nil => rfl
  | cons frame outer induction =>
      rw [enclose, induction, Forest.joined_append_cons rfl]
      rfl

theorem settled_enclose (frame : Opened) (outer : List Opened) (inside : Forest NodeKind) :
    Settled (enclose (frame :: outer) inside) := by
  induction outer generalizing frame inside with
  | nil => exact settled_append_tree rfl _ _
  | cons next outer induction => exact induction next _

theorem built_joined (nesting : Nesting) : nesting.joined.built = nesting.built.joined :=
  (joined_enclose _ _).symm

theorem depthOf?_joined (nesting : Nesting) (name : String) :
    nesting.joined.depthOf? name = nesting.depthOf? name := List.findIdx?_map

theorem joined_add {kind : NodeKind} (plain : kind.isText = false) (nesting : Nesting) :
    (nesting.add kind).joined = nesting.joined.add kind := by
  rw [joined, add, Forest.joined_append_cons plain]
  rfl

theorem joined_close (nesting : Nesting) (count : Nat) :
    (nesting.close count).joined = nesting.joined.close count := by
  rw [joined, close, joined_enclose, List.map_drop, List.map_take]
  rfl

/-- A tag or a comment does the same where texts are joined. -/
theorem joined_step {token : Token} (plain : token.isText = false) (nesting : Nesting) :
    (nesting.step token).joined = nesting.joined.step token := by
  cases token with
  | text => cases plain
  | comment value => exact joined_add rfl nesting
  | startTag name attributes selfClosing =>
      unfold step consume
      dsimp only
      split
      · exact joined_add rfl nesting
      · rfl
  | endTag name =>
      have same := nesting.depthOf?_joined name
      cases found : nesting.depthOf? name with
      | none => rw [step_of_depthOf?_eq_none found, step_of_depthOf?_eq_none (same.trans found)]
      | some depth =>
          rw [step_of_depthOf? found, step_of_depthOf? (same.trans found), joined_close]

/-- The end tag matches no open element. -/
def isStray (nesting : Nesting) : Token → Bool
  | .endTag name => (nesting.depthOf? name).isNone
  | _ => false

theorem step_of_isStray {nesting : Nesting} {token : Token}
    (stray : nesting.isStray token = true) : nesting.step token = nesting := by
  cases token with
  | endTag name => exact step_of_depthOf?_eq_none (Option.isNone_iff_eq_none.mp stray)
  | _ => cases stray

/-- Behind a tag that is no stray one, and behind a comment, a text begins anew. -/
theorem settled_step {nesting : Nesting} {token : Token} (plain : token.isText = false)
    (meant : nesting.isStray token = false) : Settled (nesting.step token).inside := by
  cases token with
  | text => cases plain
  | comment value => exact settled_append_tree rfl _ _
  | startTag name attributes selfClosing =>
      unfold step consume
      dsimp only
      split
      · exact settled_append_tree rfl _ _
      · exact fun _ => rfl
  | endTag name =>
      obtain ⟨depth, found⟩ := Option.isSome_iff_exists.mp (Option.isNone_eq_false_iff.mp meant)
      have inside : depth < nesting.opened.length :=
        (List.findIdx?_eq_some_iff_findIdx_eq.mp found).1
      rw [step_of_depthOf? found]
      cases opened : nesting.opened with
      | nil =>
          rw [opened] at inside
          cases inside
      | cons frame outer =>
          rw [close, opened]
          exact settled_enclose frame _ _

/-! Texts that are held back. -/

def heldText : Option String → Forest NodeKind
  | none => .nil
  | some value => .leaf (.text value)

theorem run_pending (nesting : Nesting) (held : Option String) :
    nesting.run (pending held) = { nesting with inside := nesting.inside ++ heldText held } := by
  cases held with
  | none => rw [heldText, Forest.append_nil]; rfl
  | some value => rfl

/-- The second nesting has the elements of the first with texts joined, but for the text that is
held back. -/
structure Lags (held : Option String) (nesting lagging : Nesting) : Prop where
  opened : lagging.opened = nesting.opened.map Opened.joined
  inside : ∀ tail,
    (nesting.inside ++ tail).joined = lagging.inside ++ (heldText held ++ tail).joined

namespace Lags

variable {held : Option String} {nesting lagging : Nesting}

theorem of_settled (settled : Settled nesting.inside) : Lags none nesting nesting.joined :=
  ⟨rfl, settled⟩

/-- A text is added to the one that is held back. -/
theorem text (lags : Lags held nesting lagging) (value : String) :
    Lags (some (held.getD "" ++ value)) (nesting.step (.text value)) lagging where
  opened := lags.opened
  inside tail := by
    have joins : (heldText held ++ (.leaf (.text value) ++ tail)).joined =
        (heldText (some (held.getD "" ++ value)) ++ tail).joined := by
      cases held with
      | none => rw [Option.getD_none, String.empty_append]; rfl
      | some earlier => exact Forest.joined_cons_text earlier value tail
    rw [← joins, ← lags.inside, ← Forest.append_assoc]
    rfl

theorem run_pending (lags : Lags held nesting lagging) :
    lagging.run (pending held) = nesting.joined := by
  have inside := lags.inside .nil
  have alone : (heldText held).joined = heldText held := by cases held <;> rfl
  rw [Forest.append_nil, Forest.append_nil, alone] at inside
  rw [Nesting.run_pending, lags.opened, ← inside]
  rfl

end Lags

end Nesting

/-! The text without stray end tags. -/

/-- The lexemes of a row without the stray end tags. -/
def keptFrom (nesting : Nesting) : List Lexeme → List Lexeme
  | [] => []
  | lexeme :: rest =>
      let later := keptFrom (nesting.step lexeme.token) rest
      if nesting.isStray lexeme.token then later else lexeme :: later

/-- The text without the end tags that match no open element. -/
def withoutStrays (source : String) (tokens : List Placed) : String :=
  String.ofList (spell (keptFrom .empty (lexemes source.toList tokens)))

theorem keptFrom_sublist (nesting : Nesting) (row : List Lexeme) :
    (keptFrom nesting row).Sublist row := by
  induction row generalizing nesting with
  | nil => exact .slnil
  | cons lexeme rest induction =>
      rw [keptFrom]
      split
      · exact (induction _).cons _
      · exact (induction _).cons_cons _

theorem run_keptFrom (nesting : Nesting) (row : List Lexeme) :
    nesting.run (tokensIn (keptFrom nesting row)) = nesting.run (tokensIn row) := by
  induction row generalizing nesting with
  | nil => rfl
  | cons lexeme rest induction =>
      rw [keptFrom, tokensIn_cons, Nesting.run_cons]
      split
      next stray =>
        rw [Nesting.step_of_isStray stray]
        exact induction nesting
      next => exact induction _

/-- The induction is on the row. A stray end tag changes no nesting and is left out, and every other
tag or comment finds the text before it held back. -/
theorem Nesting.Lags.run {held : Option String} {nesting lagging : Nesting}
    (lags : Lags held nesting lagging) (row : List Lexeme) :
    lagging.run (joinFrom held (tokensIn (keptFrom nesting row))) =
      (nesting.run (tokensIn row)).joined := by
  induction row generalizing held nesting lagging with
  | nil => exact lags.run_pending
  | cons lexeme rest induction =>
      obtain ⟨token, spelling⟩ := lexeme
      cases stray : nesting.isStray token with
      | true =>
          rw [keptFrom, if_pos stray, tokensIn_cons, run_cons, step_of_isStray stray]
          exact induction lags
      | false =>
          rw [keptFrom, if_neg (Bool.eq_false_iff.mp stray), tokensIn_cons, tokensIn_cons, run_cons]
          cases plain : token.isText with
          | true =>
              obtain ⟨value, rfl⟩ := Token.isText_iff.mp plain
              exact induction (lags.text value)
          | false =>
              rw [joinFrom_cons plain, run_append, lags.run_pending, run_cons,
                ← joined_step plain]
              exact induction (.of_settled (settled_step plain stray))

/-- No text stands behind another one with only stray end tags between them. -/
def Unparted (source : String) (tokens : List Placed) : Prop :=
  (tokensIn (keptFrom .empty (lexemes source.toList tokens))).IsChain Token.Apart

/-- Without its stray end tags a text has tokens, and their forest is that of the text with texts
joined that stand side by side. It is the same forest only if the end tags parted no texts, as every
text that is joined to another one is a node less. -/
theorem nest_withoutStrays {source : String} {tokens : List Placed}
    (read : tokenize source = .ok tokens) :
    ∃ placed, tokenize (withoutStrays source tokens) = .ok placed ∧
      (nest placed).1 = (nest tokens).1.joined ∧
      ((nest placed).1 = (nest tokens).1 ↔ Unparted source tokens) := by
  have run := tokenize_eq_ok.mp read
  let kept := keptFrom .empty (lexemes source.toList tokens)
  have sound : ∀ lexeme ∈ kept, lexeme.Sound :=
    fun lexeme member => sound_lexemes run lexeme ((keptFrom_sublist _ _).subset member)
  obtain ⟨placed, found, same⟩ := tokenize_spell sound
  have start : Nesting.Lags none .empty .empty := .of_settled fun _ => rfl
  have whole : (nest tokens).1 = (Nesting.empty.run (tokensIn kept)).built := by
    rw [run_keptFrom, tokensIn_lexemes run, fst_nest]
  have joined : (nest placed).1 = (Nesting.empty.run (joinFrom none (tokensIn kept))).built := by
    rw [fst_nest, same]
  refine ⟨placed, found, ?_, fun equal => ?_, fun unparted => ?_⟩
  · rw [joined, start.run, tokensIn_lexemes run, Nesting.built_joined, fst_nest]
  · have nodes := congrArg (List.length ∘ Forest.preorder) (joined.symm.trans (equal.trans whole))
    simp only [Function.comp_apply, Nesting.preorder_run, List.length_append,
      List.length_filterMap_eq_countP] at nodes
    exact (nodeCount_joinFrom none (tokensIn kept)).2 (Nat.add_left_cancel nodes)
  · rw [joined, joinFrom_none unparted, whole]

end ViewTemplates.Markup
