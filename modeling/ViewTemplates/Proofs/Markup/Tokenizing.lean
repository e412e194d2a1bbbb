import Mathlib.Data.List.Chain
import ViewTemplates.Proofs.Markup.Cutting

/-!
Tokens and the text they come from. The tokens of a text lie side by side from its beginning to its
end, and a cut between two of them cuts the text into two that are read on their own. A text with a
fault has a last place up to which it can be read, and the fault is that of the text from there.
-/

namespace ViewTemplates.Markup

open Text

variable {source : List Char} {offset : Nat} {tokens : List Placed}

/-! A step, and the run. -/

theorem width_pos {text : List Char} (nonempty : text ≠ []) : 0 < width text := by
  obtain ⟨c, rest, rfl⟩ := List.exists_cons_of_ne_nil nonempty
  exact Nat.add_pos_left c.utf8Size_pos _

/-- The token that is read first stands at the offset, and reading goes on behind its characters. -/
theorem tokensFrom_append (offset : Nat) {piece rest : List Char} {token : Token}
    (nonempty : piece ≠ [])
    (read : Token.read (piece ++ rest) = .ok (token, rest)) :
    tokensFrom offset (piece ++ rest) =
      match tokensFrom (offset + width piece) rest with
      | .error failure => .error failure
      | .ok tokens => .ok (⟨token, offset⟩ :: tokens) := by
  obtain ⟨c, tail, rfl⟩ := List.exists_cons_of_ne_nil nonempty
  have step := @tokensFrom_of_read offset c (tail ++ rest) rest token read
  rw [← List.cons_append, width_append, Nat.add_sub_cancel] at step
  exact step

/-- What is taken of a text with a token is not nothing. -/
theorem exists_of_read (more : source ≠ []) {token : Token} {rest : List Char}
    (read : Token.read source = .ok (token, rest)) :
    ∃ piece, piece ≠ [] ∧ source = piece ++ rest ∧ token.Spelled piece rest := by
  obtain ⟨piece, split, spelled⟩ := Token.exists_spelled_of_read read
  refine ⟨piece, ?_, split, spelled⟩
  rintro rfl
  obtain ⟨c, tail, rfl⟩ := List.exists_cons_of_ne_nil more
  have shorter := Token.read_length read
  rw [split] at shorter
  exact Nat.lt_irrefl _ shorter

theorem exists_of_tokensFrom {placed : Placed} {later : List Placed}
    (run : tokensFrom offset source = .ok (placed :: later)) :
    ∃ piece rest, piece ≠ [] ∧ source = piece ++ rest ∧ placed.offset = offset ∧
      placed.token.Spelled piece rest ∧
      tokensFrom (offset + width piece) rest = .ok later := by
  cases source with
  | nil =>
      rw [tokensFrom_nil] at run
      cases run
  | cons c tail =>
      cases read : Token.read (c :: tail) with
      | error blame =>
          rw [tokensFrom_of_error read] at run
          cases run
      | ok result =>
          obtain ⟨token, rest⟩ := result
          obtain ⟨piece, nonempty, split, spelled⟩ := exists_of_read (List.cons_ne_nil _ _) read
          rw [split] at read run
          rw [tokensFrom_append _ nonempty read] at run
          split at run
          next => cases run
          next behind =>
            cases run
            exact ⟨piece, rest, nonempty, split, rfl, spelled, behind⟩

/-- Only the empty text has no tokens. -/
theorem eq_nil_of_tokensFrom (run : tokensFrom offset source = .ok []) : source = [] := by
  cases source with
  | nil => rfl
  | cons c tail =>
      cases read : Token.read (c :: tail) with
      | error blame =>
          rw [tokensFrom_of_error read] at run
          cases run
      | ok result =>
          rw [tokensFrom_of_read read] at run
          split at run <;> cases run

/-- A cut between tokens cuts the text. The induction is on the tokens before the cut, and each of
them is read alike where the text ends at the cut. -/
theorem exists_of_tokensFrom_append {earlier later : List Placed}
    (run : tokensFrom offset source = .ok (earlier ++ later)) :
    ∃ front back, source = front ++ back ∧ tokensFrom offset front = .ok earlier ∧
      tokensFrom (offset + width front) back = .ok later := by
  induction earlier generalizing offset source with
  | nil => exact ⟨[], source, rfl, tokensFrom_nil offset, run⟩
  | cons placed earlier induction =>
      obtain ⟨piece, rest, nonempty, split, rfl, spelled, run⟩ := exists_of_tokensFrom run
      obtain ⟨front, back, inner, before, behind⟩ := induction run
      refine ⟨piece ++ front, back, by rw [split, inner, List.append_assoc], ?_, ?_⟩
      · rw [tokensFrom_append _ nonempty (spelled.of_isPrefix ⟨back, inner.symm⟩), before]
      · rwa [width_append, ← Nat.add_assoc]

/-- A fault is found by reading a token at a place up to which the text can be read. -/
theorem exists_of_tokensFrom_error {fault : Fault} {place : Nat}
    (run : tokensFrom offset source = .error (fault, place)) :
    ∃ front back earlier found, source = front ++ back ∧ tokensFrom offset front = .ok earlier ∧
      Token.read back = .error ⟨fault, found⟩ ∧
      place = offset + width front + (width back - width found) := by
  fun_induction tokensFrom offset source with
  | case1 => cases run
  | case2 offset c tail blame read =>
      cases run
      exact ⟨[], c :: tail, [], blame.found, rfl, tokensFrom_nil offset, read, rfl⟩
  | case3 offset c tail token rest read _ failure later induction =>
      cases run
      obtain ⟨piece, nonempty, split, spelled⟩ := exists_of_read (List.cons_ne_nil _ _) read
      obtain ⟨front, back, earlier, found, inner, before, blamed, stands⟩ := induction later
      refine ⟨piece ++ front, back, ⟨token, offset⟩ :: earlier, found, ?_, ?_, blamed, ?_⟩
      · rw [split, inner, List.append_assoc]
      · rw [split, width_append, Nat.add_sub_cancel] at before
        rw [tokensFrom_append _ nonempty (spelled.of_isPrefix ⟨back, inner.symm⟩), before]
      · rw [stands, split]
        simp only [width_append]
        omega
  | case4 => cases run
  | case5 => cases run

/-! Offsets. -/

def Placed.shift (cut : Nat) (placed : Placed) : Placed :=
  { placed with offset := cut + placed.offset }

/-- Where a text begins only moves its tokens, or its fault. -/
theorem tokensFrom_add (cut offset : Nat) (source : List Char) :
    tokensFrom (cut + offset) source =
      match tokensFrom offset source with
      | .error (fault, place) => .error (fault, cut + place)
      | .ok tokens => .ok (tokens.map (·.shift cut)) := by
  fun_induction tokensFrom offset source with
  | case1 => rw [tokensFrom_nil]; rfl
  | case2 offset c tail blame read => rw [tokensFrom_of_error read, Nat.add_assoc]
  | case3 offset c tail token rest read _ failure later induction =>
      rw [tokensFrom_of_read read, Nat.add_assoc, induction, later]
  | case4 offset c tail token rest read _ tokens later induction =>
      rw [tokensFrom_of_read read, Nat.add_assoc, induction, later]
      rfl
  | case5 offset c tail token rest read longer => exact (longer (Token.read_length read)).elim

theorem le_offset_of_tokensFrom (run : tokensFrom offset source = .ok tokens) :
    ∀ placed ∈ tokens, offset ≤ placed.offset := by
  intro placed member
  obtain ⟨earlier, later, rfl⟩ := List.append_of_mem member
  obtain ⟨front, back, -, -, behind⟩ := exists_of_tokensFrom_append run
  obtain ⟨-, -, -, -, stands, -⟩ := exists_of_tokensFrom behind
  rw [stands]
  exact Nat.le_add_right _ _

theorem pairwise_of_tokensFrom (run : tokensFrom offset source = .ok tokens) :
    tokens.Pairwise fun one next => one.offset < next.offset := by
  induction tokens generalizing offset source with
  | nil => exact .nil
  | cons placed later induction =>
      obtain ⟨piece, rest, nonempty, -, rfl, -, behind⟩ := exists_of_tokensFrom run
      refine .cons (fun next member => ?_) (induction behind)
      have := le_offset_of_tokensFrom behind next member
      have := width_pos nonempty
      omega

/-! Texts. -/

def Token.isText : Token → Bool
  | text _ => true
  | _ => false

theorem Token.isText_iff {token : Token} : token.isText = true ↔ ∃ value, token = .text value := by
  cases token <;> simp [isText]

/-- A text is read where no `<` stands, and runs to the next one. -/
theorem Token.text_of_read (more : source ≠ []) {value : String} {rest : List Char}
    (read : Token.read source = .ok (.text value, rest)) : source = value.toList ++ rest ∧
      '<' ∉ source.head? ∧ ∀ c ∈ rest.head?, c = '<' := by
  unfold Token.read at read
  split at read
  next => split at read <;> cases read
  next =>
    split at read
    next => split at read <;> cases read
    next => cases read
  next =>
    split at read
    next => split at read <;> cases read
    next => cases read
  next other =>
    cases read
    obtain ⟨whole, -, stops⟩ := span_iff.mp ⟨rfl, rfl⟩
    rw [String.toList_ofList]
    refine ⟨whole, fun head => ?_, fun c head => by simpa using stops c head⟩
    obtain ⟨rest, rfl⟩ := List.head?_eq_some_iff.mp head
    exact other rest rfl

/-- Behind a text stands no other text. -/
theorem isChain_of_tokensFrom (run : tokensFrom offset source = .ok tokens) :
    tokens.IsChain fun one next => ¬(one.token.isText ∧ next.token.isText) := by
  rw [List.isChain_iff_forall_rel_of_append_cons_cons]
  rintro one next earlier later rfl ⟨first, second⟩
  obtain ⟨_, _, -, -, here⟩ := exists_of_tokensFrom_append run
  obtain ⟨piece, rest, nonempty, -, -, spelled, behind⟩ := exists_of_tokensFrom here
  obtain ⟨nextPiece, nextRest, more, split, -, nextSpelled, -⟩ := exists_of_tokensFrom behind
  obtain ⟨value, text⟩ := Token.isText_iff.mp first
  obtain ⟨nextValue, nextText⟩ := Token.isText_iff.mp second
  have read := spelled.of_isPrefix List.prefix_rfl
  have nextRead := nextSpelled.of_isPrefix List.prefix_rfl
  rw [text] at read
  rw [nextText] at nextRead
  obtain ⟨-, -, stops⟩ := Token.text_of_read (List.append_ne_nil_of_left_ne_nil nonempty _) read
  obtain ⟨-, plain, -⟩ := Token.text_of_read (List.append_ne_nil_of_left_ne_nil more _) nextRead
  rw [← split] at plain
  cases rest with
  | nil => exact more (List.append_eq_nil_iff.mp split.symm).1
  | cons c tail => exact plain (stops c rfl ▸ rfl)

/-! Texts as strings. -/

theorem utf8ByteSize_ofList (text : List Char) :
    (String.ofList text).utf8ByteSize = width text := by
  induction text with
  | nil => rfl
  | cons c rest induction =>
      rw [String.ofList_cons, String.utf8ByteSize_append, String.utf8ByteSize_singleton, induction]
      rfl

theorem tokenize_eq_ok {text : String} :
    tokenize text = .ok tokens ↔ tokensFrom 0 text.toList = .ok tokens := by
  rw [tokenize]
  cases run : tokensFrom 0 text.toList with
  | error failure => simp
  | ok found => simp

theorem tokenize_ofList {text : List Char} :
    tokenize (String.ofList text) = .ok tokens ↔ tokensFrom 0 text = .ok tokens := by
  rw [tokenize_eq_ok, String.toList_ofList]

/-- A text cut before and behind one of its tokens. What stands before it has the earlier tokens,
its own characters have that token alone, and what begins with it has the token and the later ones,
which stand there as far from the beginning as they stand from the cut. -/
structure CutAt (earlier : List Placed) (placed : Placed) (later : List Placed)
    (front piece back : String) : Prop where
  offset : placed.offset = front.utf8ByteSize
  ends : (front ++ piece).utf8ByteSize =
    (later.head?.map (·.offset)).getD (front ++ piece ++ back).utf8ByteSize
  before : tokenize front = .ok earlier
  alone : tokenize piece = .ok [⟨placed.token, 0⟩]
  behind : ∃ own, tokenize (piece ++ back) = .ok own ∧
    placed :: later = own.map (·.shift placed.offset)
  text : ∀ value, placed.token = .text value → value = piece

/-- What the tokens of a text say of it. -/
structure Tokenized (source : String) (tokens : List Placed) : Prop where
  begins : tokens.head?.map (·.offset) = if source = "" then none else some 0
  increasing : tokens.Pairwise fun one next => one.offset < next.offset
  separate : tokens.IsChain fun one next => ¬(one.token.isText ∧ next.token.isText)
  cut : ∀ earlier placed later, tokens = earlier ++ placed :: later →
    ∃ front piece back, source = front ++ piece ++ back ∧
      CutAt earlier placed later front piece back

/-- What the fault of a text says of it: the text can be read up to a place, and from there on it
has the same fault in its first token. -/
structure Faulty (source : String) (error : SyntaxError) : Prop where
  inside : error.place.offset < source.utf8ByteSize
  cut : ∃ front back earlier inner, source = front ++ back ∧ tokenize front = .ok earlier ∧
    tokenize back = .error inner ∧ inner.fault = error.fault ∧
    error.place.offset = front.utf8ByteSize + inner.place.offset ∧
    ∃ found, Token.read back.toList = .error ⟨error.fault, found⟩

theorem cutAt_of_tokensFrom {earlier later : List Placed} {placed : Placed}
    (run : tokensFrom 0 source = .ok (earlier ++ placed :: later)) :
    ∃ front piece back, source = front ++ piece ++ back ∧ CutAt earlier placed later
      (String.ofList front) (String.ofList piece) (String.ofList back) := by
  obtain ⟨front, rest, split, before, here⟩ := exists_of_tokensFrom_append run
  obtain ⟨piece, back, nonempty, inner, stands, spelled, behind⟩ := exists_of_tokensFrom here
  refine ⟨front, piece, back, by rw [split, inner, List.append_assoc], ?_⟩
  constructor
  case offset => rw [stands, utf8ByteSize_ofList, Nat.zero_add]
  case ends =>
    simp only [← String.ofList_append, utf8ByteSize_ofList]
    cases later with
    | nil =>
        rw [eq_nil_of_tokensFrom behind, List.append_nil]
        rfl
    | cons next later =>
        obtain ⟨-, -, -, -, nextStands, -⟩ := exists_of_tokensFrom behind
        rw [List.head?_cons, Option.map_some, Option.getD_some, nextStands, Nat.zero_add,
          width_append]
  case before => rwa [tokenize_ofList]
  case alone =>
    have read := spelled.of_isPrefix List.nil_prefix
    have one := tokensFrom_append 0 nonempty read
    rwa [tokensFrom_nil, List.append_nil, ← tokenize_ofList] at one
  case behind =>
    rw [inner, Nat.zero_add] at here
    have moved := tokensFrom_add (width front) 0 (piece ++ back)
    rw [Nat.add_zero, here] at moved
    split at moved
    next => cases moved
    next own same =>
      refine ⟨own, by rwa [← String.ofList_append, tokenize_ofList], ?_⟩
      rw [stands, Nat.zero_add]
      exact Except.ok.inj moved
  case text =>
    intro value text
    have read := spelled.of_isPrefix List.prefix_rfl
    rw [text] at read
    obtain ⟨same, -⟩ := Token.text_of_read (List.append_ne_nil_of_left_ne_nil nonempty _) read
    rw [List.append_cancel_right same, String.ofList_toList]

theorem tokenized_of_tokensFrom (run : tokensFrom 0 source = .ok tokens) :
    Tokenized (String.ofList source) tokens := by
  constructor
  case begins =>
    cases tokens with
    | nil =>
        rw [eq_nil_of_tokensFrom run]
        rfl
    | cons placed later =>
        obtain ⟨piece, rest, nonempty, split, stands, -⟩ := exists_of_tokensFrom run
        have inside : String.ofList source ≠ "" := by simp [split, nonempty]
        rw [if_neg inside, List.head?_cons, Option.map_some, stands]
  case increasing => exact pairwise_of_tokensFrom run
  case separate => exact isChain_of_tokensFrom run
  case cut =>
    rintro earlier placed later rfl
    obtain ⟨front, piece, back, rfl, cut⟩ := cutAt_of_tokensFrom run
    exact ⟨_, _, _, by simp only [String.ofList_append], cut⟩

theorem faulty_of_tokensFrom {fault : Fault} {place : Nat}
    (run : tokensFrom 0 source = .error (fault, place)) :
    Faulty (String.ofList source) ⟨fault, .ofOffset source place⟩ := by
  obtain ⟨front, back, earlier, found, rfl, before, blamed, rfl⟩ := exists_of_tokensFrom_error run
  obtain ⟨⟨left, rfl⟩, more⟩ := Token.suffix_of_read blamed
  have wide := width_pos more
  constructor
  case inside =>
    simp only [utf8ByteSize_ofList, Place.ofOffset, width_append] at wide ⊢
    omega
  case cut =>
    have inner : tokensFrom 0 (left ++ found) =
        .error (fault, width (left ++ found) - width found) := by
      have nonempty := List.append_ne_nil_of_right_ne_nil left more
      obtain ⟨c, tail, begins⟩ := List.exists_cons_of_ne_nil nonempty
      rw [begins] at blamed ⊢
      rw [tokensFrom_of_error blamed, Nat.zero_add]
    refine ⟨String.ofList front, String.ofList (left ++ found), earlier,
      ⟨fault, .ofOffset (left ++ found) (width (left ++ found) - width found)⟩,
      String.ofList_append, tokenize_ofList.mpr before, ?_, rfl, ?_, found, ?_⟩
    · rw [tokenize, String.toList_ofList, inner]
    · rw [utf8ByteSize_ofList]
      simp only [Place.ofOffset, Nat.zero_add]
    · rwa [String.toList_ofList]

/-- Every text is cut by its tokens, or has a fault at a place inside it that does not depend on
what was read before. -/
theorem tokenize_cuts (source : String) :
    match tokenize source with
    | .ok tokens => Tokenized source tokens
    | .error error => Faulty source error := by
  cases run : tokensFrom 0 source.toList with
  | error failure =>
      have faulty := faulty_of_tokensFrom run
      rw [String.ofList_toList] at faulty
      rw [tokenize, run]
      exact faulty
  | ok tokens =>
      have tokenized := tokenized_of_tokensFrom run
      rw [String.ofList_toList] at tokenized
      rw [tokenize, run]
      exact tokenized

end ViewTemplates.Markup
