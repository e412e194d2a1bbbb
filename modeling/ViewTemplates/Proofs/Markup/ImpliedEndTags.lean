import ViewTemplates.Proofs.Markup.Lexemes

/-!
End tags that are implied. An end tag closes all that was opened inside its element, and the end of
the text closes what is open there. With these end tags written out, innermost first, each one meets
its own element, and nesting gives the same forest.
-/

namespace ViewTemplates.Markup

/-- The end tag of an open element, named as its start tag. -/
def Opened.endTag (frame : Opened) : Lexeme :=
  ⟨.endTag frame.name, '<' :: '/' :: (frame.name.toList ++ ['>'])⟩

theorem Opened.sound_endTag {frame : Opened} (named : isTagName frame.name = true) :
    frame.endTag.Sound where
  lexical := nofun
  text := nofun
  tag _ rest := by
    have read := read_endTag named rest
    simpa [endTag] using read

namespace Nesting

/-! Closing. -/

theorem close_zero (nesting : Nesting) : nesting.close 0 = nesting := rfl

theorem close_close (nesting : Nesting) (first second : Nat) :
    (nesting.close first).close second = nesting.close (first + second) := by
  rw [close, close, close, List.drop_drop, List.take_add, enclose_append]

theorem step_endTag (frame : Opened) (outer : List Opened) (inside : Forest NodeKind) :
    (mk (frame :: outer) inside).step (.endTag frame.name) =
      ⟨outer, frame.left ++ .tree (.element frame.name frame.attributes) inside⟩ :=
  congrArg Prod.fst (consume_endTag rfl)

/-- The end tags of open elements close these, and no others. -/
theorem run_endTags (frames outer : List Opened) (inside : Forest NodeKind) :
    (mk (frames ++ outer) inside).run (tokensIn (frames.map Opened.endTag)) =
      ⟨outer, enclose frames inside⟩ := by
  induction frames generalizing inside with
  | nil => rfl
  | cons frame rest induction =>
      rw [List.map_cons, tokensIn_cons, List.cons_append, run_cons, Opened.endTag, step_endTag]
      exact induction _

/-- How many open elements a token closes besides its own. -/
def implicit (nesting : Nesting) : Token → Nat
  | .endTag name => (nesting.depthOf? name).getD 0
  | _ => 0

theorem depthOf?_close {nesting : Nesting} {name : String} {depth : Nat}
    (found : nesting.depthOf? name = some depth) :
    (nesting.close depth).depthOf? name = some 0 := by
  obtain ⟨inside, same, -⟩ := List.findIdx?_eq_some_iff_getElem.mp found
  rw [depthOf?, close, List.drop_eq_getElem_cons inside, List.findIdx?_cons, if_pos same]

/-- When the elements inside its own are closed, a token closes no others. -/
theorem implicit_close (nesting : Nesting) (token : Token) :
    (nesting.close (nesting.implicit token)).implicit token = 0 := by
  cases token with
  | endTag name =>
      cases found : nesting.depthOf? name with
      | none => simp only [implicit, found, Option.getD_none, close_zero]
      | some depth =>
          simp only [implicit, found, Option.getD_some, depthOf?_close found]
  | _ => rfl

/-- It makes no difference whether the elements inside are closed before. -/
theorem step_close (nesting : Nesting) (token : Token) :
    (nesting.close (nesting.implicit token)).step token = nesting.step token := by
  cases token with
  | endTag name =>
      cases found : nesting.depthOf? name with
      | none => simp only [implicit, found, Option.getD_none, close_zero]
      | some depth =>
          rw [implicit, found, Option.getD_some, step_of_depthOf? (depthOf?_close found),
            step_of_depthOf? found, close_close]
  | _ => rfl

/-- The elements that a token closes besides its own, the innermost first. -/
def implied (nesting : Nesting) (token : Token) : List Opened :=
  nesting.opened.take (nesting.implicit token)

theorem run_implied (nesting : Nesting) (token : Token) :
    nesting.run (tokensIn ((nesting.implied token).map Opened.endTag)) =
      nesting.close (nesting.implicit token) := by
  have closed := run_endTags (nesting.implied token)
    (nesting.opened.drop (nesting.implicit token)) nesting.inside
  rwa [implied, List.take_append_drop] at closed

end Nesting

/-! The text with all end tags. -/

/-- The lexemes of a row with an end tag for each element that is closed without one. -/
def writtenOutFrom (nesting : Nesting) : List Lexeme → List Lexeme
  | [] => nesting.opened.map Opened.endTag
  | lexeme :: rest =>
      (nesting.implied lexeme.token).map Opened.endTag ++
        lexeme :: writtenOutFrom (nesting.step lexeme.token) rest

/-- The text with the end tags that it implies: before an end tag those of the elements that are
open inside its own, and at the end those of all that are open. -/
def writtenOut (source : String) (tokens : List Placed) : String :=
  String.ofList (spell (writtenOutFrom .empty (lexemes source.toList tokens)))

namespace Nesting

/-- The tokens close no element besides their own, and leave none open. -/
def Explicit (nesting : Nesting) : List Token → Prop
  | [] => nesting.opened = []
  | token :: rest => nesting.implicit token = 0 ∧ (nesting.step token).Explicit rest

theorem run_writtenOutFrom (nesting : Nesting) (row : List Lexeme) :
    nesting.run (tokensIn (writtenOutFrom nesting row)) =
      ⟨[], (nesting.run (tokensIn row)).built⟩ := by
  induction row generalizing nesting with
  | nil =>
      have closed := run_endTags nesting.opened [] nesting.inside
      rwa [List.append_nil] at closed
  | cons lexeme rest induction =>
      rw [writtenOutFrom, tokensIn_append, tokensIn_cons, run_append, run_cons, run_implied,
        step_close, induction]
      rfl

theorem explicit_endTags {frames outer : List Opened} {inside : Forest NodeKind}
    {rest : List Token} (explicit : (mk outer (enclose frames inside)).Explicit rest) :
    (mk (frames ++ outer) inside).Explicit (tokensIn (frames.map Opened.endTag) ++ rest) := by
  induction frames generalizing inside with
  | nil => exact explicit
  | cons frame others induction =>
      refine ⟨congrArg (Option.getD · 0) (depthOf?_innermost _ _ _), ?_⟩
      rw [List.cons_append, Opened.endTag, step_endTag]
      exact induction explicit

theorem explicit_writtenOutFrom (nesting : Nesting) (row : List Lexeme) :
    nesting.Explicit (tokensIn (writtenOutFrom nesting row)) := by
  induction row generalizing nesting with
  | nil =>
      have closed : (mk [] (enclose nesting.opened nesting.inside)).Explicit [] := rfl
      have explicit := explicit_endTags closed
      rwa [List.append_nil, List.append_nil] at explicit
  | cons lexeme rest induction =>
      have closed : (nesting.close (nesting.implicit lexeme.token)).Explicit
          (lexeme.token :: tokensIn (writtenOutFrom (nesting.step lexeme.token) rest)) := by
        refine ⟨nesting.implicit_close _, ?_⟩
        rw [step_close]
        exact induction _
      have explicit := explicit_endTags closed
      rw [List.take_append_drop] at explicit
      rwa [writtenOutFrom, tokensIn_append, tokensIn_cons]

/-! What is reported. -/

theorem strayEndTag_of_consume {nesting : Nesting} {placed : Placed}
    (explicit : nesting.implicit placed.token = 0) :
    ∀ event ∈ (nesting.consume placed).2, ∃ name offset, event = .strayEndTag name offset := by
  unfold consume
  cases token : placed.token with
  | text => exact nofun
  | comment => exact nofun
  | startTag =>
      simp only
      split <;> exact nofun
  | endTag name =>
      rw [token, implicit] at explicit
      simp only
      split
      next depth found =>
        rw [found, Option.getD_some] at explicit
        rw [if_pos explicit]
        exact nofun
      · split
        · exact nofun
        · intro event member
          exact ⟨_, _, List.mem_singleton.mp member⟩

theorem strayEndTag_of_explicit {nesting : Nesting} {tokens : List Placed}
    (explicit : nesting.Explicit (tokens.map (·.token))) :
    ∀ event ∈ (nesting.consumeAll tokens).2 ++ (nesting.consumeAll tokens).1.finish.2,
      ∃ name offset, event = .strayEndTag name offset := by
  induction tokens generalizing nesting with
  | nil =>
      rw [consumeAll, finish, show nesting.opened = [] from explicit]
      exact List.forall_mem_nil _
  | cons placed rest induction =>
      obtain ⟨first, later⟩ := explicit
      rw [← fst_consume] at later
      rw [consumeAll, List.append_assoc]
      intro event member
      rcases List.mem_append.mp member with here | behind
      · exact strayEndTag_of_consume first event here
      · exact induction later event behind

end Nesting

/-! What is written is read. -/

/-- Open elements are named as start tags are. -/
def Nesting.Named (nesting : Nesting) : Prop :=
  ∀ frame ∈ nesting.opened, isTagName frame.name = true

theorem Nesting.Named.step {nesting : Nesting} (named : nesting.Named) {token : Token}
    (lexical : ∀ kind, token.kind? = some kind → kind.Lexical) : (nesting.step token).Named := by
  unfold Nesting.step consume
  cases token with
  | text => exact named
  | comment => exact named
  | startTag name attributes selfClosing =>
      simp only
      split
      · exact named
      · exact List.forall_mem_cons.mpr ⟨(lexical _ rfl).1, named⟩
  | endTag name =>
      simp only
      split
      · exact fun frame member => named frame (List.mem_of_mem_drop member)
      · split <;> exact named

theorem sound_writtenOutFrom {nesting : Nesting} (named : nesting.Named) {row : List Lexeme}
    (sound : ∀ lexeme ∈ row, lexeme.Sound) :
    ∀ lexeme ∈ writtenOutFrom nesting row, lexeme.Sound := by
  induction row generalizing nesting with
  | nil =>
      rw [writtenOutFrom, List.forall_mem_map]
      exact fun frame member => Opened.sound_endTag (named frame member)
  | cons lexeme rest induction =>
      obtain ⟨first, others⟩ := List.forall_mem_cons.mp sound
      rw [writtenOutFrom, List.forall_mem_append, List.forall_mem_map, List.forall_mem_cons]
      refine ⟨fun frame member => Opened.sound_endTag (named frame ?_), first,
        induction (named.step first.lexical) others⟩
      exact List.mem_of_mem_take member

theorem isChain_endTags (frames : List Opened) {rest : List Token}
    (chain : rest.IsChain Token.Apart) :
    (tokensIn (frames.map Opened.endTag) ++ rest).IsChain Token.Apart := by
  induction frames with
  | nil => exact chain
  | cons frame others induction =>
      exact List.isChain_cons.mpr ⟨fun _ _ => .of_left rfl, induction⟩

/-- Where the row with its end tags begins with a text, so does the row. -/
theorem head?_writtenOutFrom {nesting : Nesting} {row : List Lexeme} {token : Token}
    (head : token ∈ (tokensIn (writtenOutFrom nesting row)).head?) (text : token.isText = true) :
    token ∈ (tokensIn row).head? := by
  have closing (frame : Opened) : some frame.endTag.token ≠ some token := by
    rintro ⟨⟩
    cases text
  cases row with
  | nil =>
      cases opened : nesting.opened with
      | nil => simp [writtenOutFrom, opened, tokensIn] at head
      | cons frame outer =>
          rw [writtenOutFrom, opened, List.map_cons, tokensIn_cons] at head
          exact absurd head (closing frame)
  | cons lexeme rest =>
      cases closed : nesting.implied lexeme.token with
      | nil => simpa [writtenOutFrom, closed] using head
      | cons frame outer =>
          rw [writtenOutFrom, closed, List.map_cons, List.cons_append, tokensIn_cons] at head
          exact absurd head (closing frame)

/-- End tags are put before tags or at the end, so no text comes to stand behind another. -/
theorem isChain_writtenOutFrom (nesting : Nesting) {row : List Lexeme}
    (chain : (tokensIn row).IsChain Token.Apart) :
    (tokensIn (writtenOutFrom nesting row)).IsChain Token.Apart := by
  induction row generalizing nesting with
  | nil =>
      have closed := isChain_endTags nesting.opened .nil
      rwa [List.append_nil] at closed
  | cons lexeme rest induction =>
      obtain ⟨next, behind⟩ := List.isChain_cons.mp chain
      rw [writtenOutFrom, tokensIn_append, tokensIn_cons]
      apply isChain_endTags
      refine List.isChain_cons.mpr ⟨fun token head both => ?_, induction _ behind⟩
      exact next token (head?_writtenOutFrom head both.2) both

/-- With its end tags written out a text has tokens, and their forest is that of the text; the only
end tags that anything is reported of are those that close nothing. -/
theorem nest_writtenOut {source : String} {tokens : List Placed}
    (read : tokenize source = .ok tokens) :
    ∃ placed, tokenize (writtenOut source tokens) = .ok placed ∧
      (nest placed).1 = (nest tokens).1 ∧
      ∀ event ∈ (nest placed).2, ∃ name offset, event = .strayEndTag name offset := by
  have run := tokenize_eq_ok.mp read
  have same := tokensIn_lexemes run
  have named : Nesting.empty.Named := nofun
  have chain : (tokensIn (lexemes source.toList tokens)).IsChain Token.Apart := by
    rw [same, List.isChain_map]
    exact isChain_of_tokensFrom run
  obtain ⟨placed, found, written⟩ :=
    tokenize_spell (sound_writtenOutFrom named (sound_lexemes run))
  rw [joinFrom_none (isChain_writtenOutFrom _ chain)] at written
  have explicit := Nesting.empty.explicit_writtenOutFrom (lexemes source.toList tokens)
  rw [← written] at explicit
  refine ⟨placed, found, ?_, Nesting.strayEndTag_of_explicit explicit⟩
  rw [fst_nest, written, Nesting.run_writtenOutFrom, same, fst_nest]
  rfl

end ViewTemplates.Markup
