import ViewTemplates.Proofs.Markup.Canonical
import ViewTemplates.Proofs.Markup.Tokenizing

/-!
Lexemes: tokens with the characters that spell them. Those of a text lie side by side in it. A row
of lexemes that was changed spells another text, which is read as the tokens of the row, but that
texts side by side have become one text.
-/

namespace ViewTemplates.Markup

structure Lexeme where
  token : Token
  spelling : List Char
  deriving Repr, DecidableEq

def spell (row : List Lexeme) : List Char := row.flatMap (·.spelling)

def tokensIn (row : List Lexeme) : List Token := row.map (·.token)

@[simp] theorem spell_cons (lexeme : Lexeme) (rest : List Lexeme) :
    spell (lexeme :: rest) = lexeme.spelling ++ spell rest := List.flatMap_cons

@[simp] theorem tokensIn_cons (lexeme : Lexeme) (rest : List Lexeme) :
    tokensIn (lexeme :: rest) = lexeme.token :: tokensIn rest := rfl

@[simp] theorem tokensIn_append (first second : List Lexeme) :
    tokensIn (first ++ second) = tokensIn first ++ tokensIn second := List.map_append

/-- A text cut at the offsets of its tokens. -/
def lexemes (source : List Char) : List Placed → List Lexeme
  | [] => []
  | [placed] => [⟨placed.token, source⟩]
  | placed :: next :: later =>
      let piece := before source (next.offset - placed.offset)
      ⟨placed.token, piece⟩ :: lexemes (source.drop piece.length) (next :: later)

/-! The lexemes of a text. -/

section Source

variable {source : List Char} {offset : Nat} {tokens : List Placed}

theorem exists_lexemes_cons {placed : Placed} {later : List Placed}
    (run : tokensFrom offset source = .ok (placed :: later)) :
    ∃ piece rest, piece ≠ [] ∧ source = piece ++ rest ∧ placed.token.Spelled piece rest ∧
      tokensFrom (offset + width piece) rest = .ok later ∧
      lexemes source (placed :: later) = ⟨placed.token, piece⟩ :: lexemes rest later := by
  obtain ⟨piece, rest, nonempty, split, stands, spelled, behind⟩ := exists_of_tokensFrom run
  refine ⟨piece, rest, nonempty, split, spelled, behind, ?_⟩
  cases later with
  | nil =>
      rw [split, eq_nil_of_tokensFrom behind, List.append_nil]
      rfl
  | cons next later =>
      obtain ⟨-, -, -, -, nextStands, -⟩ := exists_of_tokensFrom behind
      have cut : before source (next.offset - placed.offset) = piece := by
        rw [nextStands, stands, Nat.add_sub_cancel_left, split, before_append]
      rw [lexemes, cut, split, List.drop_left]

theorem tokensIn_lexemes (run : tokensFrom offset source = .ok tokens) :
    tokensIn (lexemes source tokens) = tokens.map (·.token) := by
  induction tokens generalizing offset source with
  | nil => rfl
  | cons placed later induction =>
      obtain ⟨piece, rest, -, -, -, behind, cut⟩ := exists_lexemes_cons run
      rw [cut, tokensIn_cons, List.map_cons, induction behind]

/-- The lexemes of a text spell it. -/
theorem spell_lexemes (run : tokensFrom offset source = .ok tokens) :
    spell (lexemes source tokens) = source := by
  induction tokens generalizing offset source with
  | nil => rw [eq_nil_of_tokensFrom run, lexemes, spell, List.flatMap_nil]
  | cons placed later induction =>
      obtain ⟨piece, rest, -, split, -, behind, cut⟩ := exists_lexemes_cons run
      rw [cut, spell_cons, induction behind, ← split]

end Source

/-- The characters are read as the token. A text is spelled by itself, and what is no text is read
alike before any rest. -/
structure Lexeme.Sound (lexeme : Lexeme) : Prop where
  lexical : ∀ kind, lexeme.token.kind? = some kind → kind.Lexical
  text : ∀ value, lexeme.token = .text value → lexeme.spelling = value.toList
  tag : lexeme.token.isText = false →
    ∀ rest, Token.read (lexeme.spelling ++ rest) = .ok (lexeme.token, rest)

theorem sound_lexemes {source : List Char} {offset : Nat} {tokens : List Placed}
    (run : tokensFrom offset source = .ok tokens) :
    ∀ lexeme ∈ lexemes source tokens, lexeme.Sound := by
  induction tokens generalizing offset source with
  | nil => exact nofun
  | cons placed later induction =>
      obtain ⟨piece, rest, nonempty, split, spelled, behind, cut⟩ := exists_lexemes_cons run
      rw [cut, List.forall_mem_cons]
      refine ⟨⟨lexical_of_tokensFrom run placed List.mem_cons_self, ?_, ?_⟩, induction behind⟩
      · rintro value (text : placed.token = _)
        have read := spelled.of_isPrefix List.prefix_rfl
        rw [text] at read
        obtain ⟨same, -⟩ := Token.text_of_read (List.append_ne_nil_of_left_ne_nil nonempty _) read
        exact List.append_cancel_right same
      · intro plain kept
        refine spelled kept fun value text => ?_
        rw [show placed.token = _ from text] at plain
        cases plain

/-- What is no text begins with a bracket. -/
theorem Lexeme.Sound.exists_cons {lexeme : Lexeme} (sound : lexeme.Sound)
    (plain : lexeme.token.isText = false) : ∃ tail, lexeme.spelling = '<' :: tail := by
  have read := sound.tag plain []
  rw [List.append_nil] at read
  cases spelled : lexeme.spelling with
  | nil =>
      rw [spelled] at read
      obtain ⟨text, -⟩ := Prod.mk.inj (Except.ok.inj read)
      rw [← text] at plain
      cases plain
  | cons c tail =>
      by_cases bracket : c = '<'
      · rw [bracket]
        exact ⟨tail, rfl⟩
      · rw [spelled, read_of_ne bracket] at read
        obtain ⟨text, -⟩ := Prod.mk.inj (Except.ok.inj read)
        rw [← text] at plain
        cases plain

/-! Texts side by side. -/

/-- The text that is held back. -/
def pending (held : Option String) : List Token := (held.map Token.text).toList

/-- A row of tokens where texts that stand side by side are one text. What was held back stands in
front of them. -/
def joinFrom (held : Option String) : List Token → List Token
  | [] => pending held
  | token :: rest =>
      match token with
      | .text value => joinFrom (some (held.getD "" ++ value)) rest
      | other => pending held ++ other :: joinFrom none rest

theorem joinFrom_cons {token : Token} (plain : token.isText = false) (held : Option String)
    (rest : List Token) :
    joinFrom held (token :: rest) = pending held ++ token :: joinFrom none rest := by
  cases token with
  | text => cases plain
  | _ => rfl

/-- The tokens are not both texts. -/
def Token.Apart (one next : Token) : Prop := ¬(one.isText ∧ next.isText)

instance : DecidableRel Token.Apart :=
  fun one next => inferInstanceAs (Decidable ¬(one.isText ∧ next.isText))

theorem Token.Apart.of_left {one next : Token} (plain : one.isText = false) : one.Apart next := by
  rintro ⟨text, -⟩
  rw [plain] at text
  cases text

theorem Token.Apart.of_right {one next : Token} (plain : next.isText = false) : one.Apart next := by
  rintro ⟨-, text⟩
  rw [plain] at text
  cases text

theorem joinFrom_of_isChain {tokens : List Token} {held : Option String}
    (chain : tokens.IsChain Token.Apart)
    (apart : held ≠ none → ∀ token ∈ tokens.head?, token.isText = false) :
    joinFrom held tokens = pending held ++ tokens := by
  induction tokens generalizing held with
  | nil => exact (List.append_nil _).symm
  | cons token rest induction =>
      obtain ⟨next, behind⟩ := List.isChain_cons.mp chain
      cases plain : token.isText with
      | false => rw [joinFrom_cons plain, induction behind (absurd rfl)]; rfl
      | true =>
          obtain ⟨value, rfl⟩ := Token.isText_iff.mp plain
          obtain rfl : held = none := by
            by_contra holds
            cases apart holds _ rfl
          rw [joinFrom, induction behind]
          · simp [pending]
          · intro _ other head
            simpa [Token.Apart, plain] using next other head

/-- Where no texts stand side by side, there is nothing to join. -/
theorem joinFrom_none {tokens : List Token} (chain : tokens.IsChain Token.Apart) :
    joinFrom none tokens = tokens := joinFrom_of_isChain chain (absurd rfl)

/-- How many nodes the tokens make. -/
def nodeCount (tokens : List Token) : Nat := tokens.countP fun token => token.kind?.isSome

/-- Joined texts make no more nodes, and as many only where there is nothing to join. -/
theorem nodeCount_joinFrom (held : Option String) (tokens : List Token) :
    nodeCount (joinFrom held tokens) ≤ nodeCount (pending held ++ tokens) ∧
      (nodeCount (joinFrom held tokens) = nodeCount (pending held ++ tokens) →
        (pending held ++ tokens).IsChain Token.Apart) := by
  induction tokens generalizing held with
  | nil =>
      rw [joinFrom, List.append_nil]
      refine ⟨Nat.le_refl _, fun _ => ?_⟩
      cases held with
      | none => exact .nil
      | some value => exact .singleton _
  | cons token rest induction =>
      cases plain : token.isText with
      | true =>
          obtain ⟨value, rfl⟩ := Token.isText_iff.mp plain
          rw [joinFrom]
          cases held with
          | none =>
              rw [Option.getD_none, String.empty_append]
              exact induction (some value)
          | some earlier =>
              -- Two texts are one node less, and nothing behind them makes up for it.
              have fewer := (induction (some (earlier ++ value))).1
              rw [Option.getD_some]
              simp only [nodeCount, pending, Option.map_some, Option.toList_some,
                List.singleton_append, List.countP_cons, Token.kind?, Option.isSome_some,
                if_true] at fewer ⊢
              exact ⟨by omega, fun equal => by omega⟩
      | false =>
          obtain ⟨fewer, chain⟩ := induction none
          rw [pending, Option.map_none, Option.toList_none, List.nil_append] at fewer chain
          simp only [nodeCount] at fewer chain
          simp only [joinFrom_cons plain, nodeCount, List.countP_append, List.countP_cons]
          refine ⟨by omega, fun equal => ?_⟩
          have behind : (token :: rest).IsChain Token.Apart :=
            List.isChain_cons.mpr ⟨fun _ _ => .of_left plain, chain (by omega)⟩
          cases held with
          | none => exact behind
          | some earlier => exact List.isChain_cons_cons.mpr ⟨.of_right plain, behind⟩

theorem reads_pending {held : Option String}
    (lexical : ∀ value ∈ held, (NodeKind.text value).Lexical) {rest : List Char}
    (stop : EndsText rest) : Reads ((held.getD "").toList ++ rest) (pending held) rest := by
  cases held with
  | none => exact .nil rest
  | some value =>
      obtain ⟨nonempty, plain⟩ := lexical value rfl
      exact .cons (List.append_ne_nil_of_left_ne_nil nonempty _) (read_text nonempty plain stop)
        (.nil rest)

/-- What a row of lexemes spells is read as their tokens with the texts joined. The induction holds
back the text that the row continues. -/
theorem reads_spell {row : List Lexeme} (sound : ∀ lexeme ∈ row, lexeme.Sound)
    {held : Option String} (lexical : ∀ value ∈ held, (NodeKind.text value).Lexical) :
    Reads ((held.getD "").toList ++ spell row) (joinFrom held (tokensIn row)) [] := by
  induction row generalizing held with
  | nil => exact reads_pending lexical trivial
  | cons lexeme rest induction =>
      obtain ⟨first, others⟩ := List.forall_mem_cons.mp sound
      obtain ⟨token, spelling⟩ := lexeme
      rw [tokensIn_cons, spell_cons]
      cases plain : token.isText with
      | true =>
          obtain ⟨value, rfl⟩ := Token.isText_iff.mp plain
          obtain ⟨nonempty, free⟩ := first.lexical _ rfl
          have longer : (NodeKind.text (held.getD "" ++ value)).Lexical := by
            cases held with
            | none => simpa using ⟨nonempty, free⟩
            | some earlier =>
                obtain ⟨_, earlierFree⟩ := lexical earlier rfl
                simp [NodeKind.Lexical, nonempty, free, earlierFree]
          rw [first.text value rfl, ← List.append_assoc, ← String.toList_append]
          exact @induction others (some (held.getD "" ++ value)) (by rintro _ ⟨⟩; exact longer)
      | false =>
          obtain ⟨tail, begins⟩ := first.exists_cons plain
          have behind := @induction others none
            fun _ absent => absurd absent (Option.not_mem_none _)
          rw [joinFrom_cons plain]
          refine (reads_pending lexical ?_).append (.cons ?_ (first.tag plain _) behind)
          · rw [begins]
            rfl
          · rw [begins]
            exact List.cons_ne_nil _ _

theorem tokenize_spell {row : List Lexeme} (sound : ∀ lexeme ∈ row, lexeme.Sound) :
    ∃ placed, tokenize (String.ofList (spell row)) = .ok placed ∧
      placed.map (·.token) = joinFrom none (tokensIn row) := by
  have reads : Reads (spell row) (joinFrom none (tokensIn row)) [] :=
    @reads_spell row sound none fun _ absent => absurd absent (Option.not_mem_none _)
  obtain ⟨placed, run, same⟩ := reads.tokensFrom 0
  exact ⟨placed, tokenize_ofList.mpr run, same⟩

end ViewTemplates.Markup
