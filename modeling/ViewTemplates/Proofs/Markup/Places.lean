import Mathlib.Data.List.DropRight
import ViewTemplates.Proofs.Markup.Tokenizing

/-!
Places for readers. A line and a column say as much as the offset: from one boundary between
characters to the next they grow, and whoever goes down the lines and then along the columns arrives
at the offset again. The place of a fault is one of these boundaries, with a character behind it.
-/

namespace ViewTemplates.Markup

/-! Lines and columns of what stands before a place. -/

/-- What stands in the last line. -/
def lastLine (text : List Char) : List Char := text.rtakeWhile (· != '\n')

def linesAbove (text : List Char) : List Char := text.rdropWhile (· != '\n')

theorem linesAbove_append_lastLine (text : List Char) : linesAbove text ++ lastLine text = text :=
  List.rdropWhile_append_rtakeWhile

theorem columnAfter_eq (text : List Char) : columnAfter text = (lastLine text).length :=
  List.length_reverse.symm

theorem notMem_lastLine (text : List Char) : '\n' ∉ lastLine text := fun member => by
  simpa using List.mem_rtakeWhile_imp member

/-- The lines above the last one end with a line break. -/
theorem linesAbove_cases (text : List Char) :
    linesAbove text = [] ∨ ∃ lines, linesAbove text = lines ++ ['\n'] := by
  rcases List.eq_nil_or_concat (linesAbove text) with empty | ⟨lines, last, above⟩
  · exact .inl empty
  · rw [List.concat_eq_append] at above
    have nonempty : linesAbove text ≠ [] := by simp [above]
    have stops : ¬((linesAbove text).getLast nonempty != '\n') = true :=
      List.rdropWhile_last_not (· != '\n') text nonempty
    rw [List.getLast_congr nonempty (by simp) above, List.getLast_append_singleton] at stops
    have ends : last = '\n' := by simpa using stops
    exact .inr ⟨lines, ends ▸ above⟩

theorem count_linesAbove (text : List Char) : (linesAbove text).count '\n' = text.count '\n' := by
  conv_rhs => rw [← linesAbove_append_lastLine text, List.count_append,
    List.count_eq_zero.mpr (notMem_lastLine text)]
  rfl

/-- Characters of one line move the column alone. -/
theorem columnAfter_append {front piece : List Char} (free : '\n' ∉ piece) :
    columnAfter (front ++ piece) = columnAfter front + piece.length := by
  have inLine : ∀ c ∈ piece.reverse, (c != '\n') = true := by
    intro c member
    rw [bne_iff_ne]
    rintro rfl
    exact free (List.mem_reverse.mp member)
  rw [columnAfter, List.reverse_append, List.takeWhile_append_of_pos inLine, List.length_append,
    List.length_reverse, Nat.add_comm, columnAfter]

theorem lineAfter_append (front piece : List Char) :
    lineAfter (front ++ piece) = lineAfter front + piece.count '\n' := by
  rw [lineAfter, lineAfter, List.count_append, Nat.add_right_comm]

/-- Behind more characters stands a later line, or a later column of the same line. -/
theorem lex_append (front : List Char) {piece : List Char} (nonempty : piece ≠ []) :
    Prod.Lex (· < ·) (· < ·) (lineAfter front, columnAfter front)
      (lineAfter (front ++ piece), columnAfter (front ++ piece)) := by
  rw [lineAfter_append]
  by_cases broken : '\n' ∈ piece
  · exact .left _ _ (Nat.lt_add_of_pos_right (List.count_pos_iff.mpr broken))
  · rw [List.count_eq_zero.mpr broken, columnAfter_append broken]
    exact .right _ (Nat.lt_add_of_pos_right (List.length_pos_iff.mpr nonempty))

/-! The way back. -/

/-- What stands behind a number of line breaks. -/
def dropLines : Nat → List Char → List Char
  | 0, text => text
  | lines + 1, text => dropLines lines ((text.dropWhile (· != '\n')).drop 1)

/-- The offset behind a number of line breaks and a number of characters. -/
def offsetAt (source : List Char) (lines columns : Nat) : Nat :=
  width source - width ((dropLines lines source).drop columns)

theorem dropLines_succ_cons (lines : Nat) {c : Char} (other : c ≠ '\n') (text : List Char) :
    dropLines (lines + 1) (c :: text) = dropLines (lines + 1) text := by
  have skipped : (c :: text).dropWhile (· != '\n') = text.dropWhile (· != '\n') :=
    List.dropWhile_cons_of_pos (bne_iff_ne.mpr other)
  rw [dropLines, skipped, dropLines]

theorem dropLines_succ_newline (lines : Nat) (text : List Char) :
    dropLines (lines + 1) ('\n' :: text) = dropLines lines text := rfl

theorem dropLines_lines (lines rest : List Char) :
    dropLines ((lines ++ ['\n']).count '\n') (lines ++ ['\n'] ++ rest) = rest := by
  induction lines with
  | nil => rfl
  | cons c lines induction =>
      by_cases ends : c = '\n'
      · subst ends
        rw [List.cons_append, List.cons_append, List.count_cons_self, dropLines_succ_newline,
          induction]
      · -- The line goes on up to a later break.
        have later : 0 < (lines ++ ['\n']).count '\n' := List.count_pos_iff.mpr (by simp)
        obtain ⟨count, equal⟩ := Nat.exists_eq_add_one.mpr later
        rw [List.cons_append, List.cons_append, List.count_cons_of_ne ends, equal,
          dropLines_succ_cons count ends, ← equal, induction]

theorem dropLines_count (front back : List Char) :
    dropLines (front.count '\n') (front ++ back) = lastLine front ++ back := by
  have split : front ++ back = linesAbove front ++ (lastLine front ++ back) := by
    rw [← List.append_assoc, linesAbove_append_lastLine]
  rw [split, ← count_linesAbove]
  rcases linesAbove_cases front with empty | ⟨lines, above⟩
  · rw [empty]
    rfl
  · rw [above]
    exact dropLines_lines lines _

theorem offsetAt_append (front back : List Char) :
    offsetAt (front ++ back) (lineAfter front - 1) (columnAfter front) = width front := by
  rw [offsetAt, lineAfter, Nat.add_sub_cancel, dropLines_count, columnAfter_eq,
    List.drop_left, width_append, Nat.add_sub_cancel]

/-! Places and boundaries. -/

/-- The offset lies between two characters of the text, or at one of its ends. -/
def Boundary (source : String) (offset : Nat) : Prop :=
  (⟨offset⟩ : String.Pos.Raw).IsValid source

theorem boundary_iff {source : String} {offset : Nat} :
    Boundary source offset ↔
      ∃ front back, source.toList = front ++ back ∧ offset = width front := by
  rw [Boundary, String.Pos.Raw.isValid_iff_exists_append]
  constructor
  · rintro ⟨front, back, rfl, stands⟩
    refine ⟨front.toList, back.toList, String.toList_append, ?_⟩
    rw [← utf8ByteSize_ofList, String.ofList_toList]
    exact congrArg String.Pos.Raw.byteIdx stands
  · rintro ⟨front, back, split, rfl⟩
    refine ⟨String.ofList front, String.ofList back, ?_, ?_⟩
    · rw [← String.ofList_append, ← split, String.ofList_toList]
    · rw [String.rawEndPos, utf8ByteSize_ofList]

/-- The place behind the front: the lines are counted from one by their ends, and the column counts
the code points of the last line. -/
structure Place.Behind (place : Place) (front : String) : Prop where
  offset : place.offset = front.utf8ByteSize
  line : place.line = front.toList.count '\n' + 1
  column : ∃ above last : String, front = above ++ last ∧
    (above = "" ∨ ∃ lines, above = lines ++ "\n") ∧ '\n' ∉ last.toList ∧ place.column = last.length

theorem ofOffset_append (front back : List Char) :
    Place.ofOffset (front ++ back) (width front) =
      ⟨width front, lineAfter front, columnAfter front⟩ := by
  rw [Place.ofOffset, before_append]

theorem behind_ofOffset (front back : List Char) :
    (Place.ofOffset (front ++ back) (width front)).Behind (String.ofList front) := by
  rw [ofOffset_append]
  constructor
  case offset => exact (utf8ByteSize_ofList front).symm
  case line => rw [String.toList_ofList, lineAfter]
  case column =>
    refine ⟨String.ofList (linesAbove front), String.ofList (lastLine front), ?_, ?_, ?_, ?_⟩
    · rw [← String.ofList_append, linesAbove_append_lastLine]
    · rcases linesAbove_cases front with empty | ⟨lines, above⟩
      · rw [empty]
        exact .inl rfl
      · rw [above, String.ofList_append]
        exact .inr ⟨String.ofList lines, rfl⟩
    · rw [String.toList_ofList]
      exact notMem_lastLine front
    · rw [columnAfter_eq, String.length_ofList]

/-- A fault stands at a boundary with a character behind it. -/
theorem exists_of_tokenize_error {source : String} {error : SyntaxError}
    (run : tokenize source = .error error) :
    ∃ front back, source.toList = front ++ back ∧ back ≠ [] ∧
      error.place = .ofOffset source.toList (width front) := by
  rw [tokenize] at run
  cases begun : tokensFrom 0 source.toList with
  | ok tokens =>
      rw [begun] at run
      cases run
  | error failure =>
      obtain ⟨fault, offset⟩ := failure
      rw [begun] at run
      cases run
      obtain ⟨front, back, _, found, split, _, blamed, rfl⟩ := exists_of_tokensFrom_error begun
      obtain ⟨⟨left, rfl⟩, more⟩ := Token.suffix_of_read blamed
      refine ⟨front ++ left, found, by rw [split, List.append_assoc], more, ?_⟩
      rw [width_append, width_append, Nat.zero_add, Nat.add_sub_cancel]

/-- The place of an error in its text. -/
structure SyntaxError.PointsInto (error : SyntaxError) (source : String) : Prop where
  boundary : Boundary source error.place.offset
  inside : error.place.offset < source.utf8ByteSize
  behind : ∃ front back, source = front ++ back ∧ error.place.Behind front

/-- What the lines and columns of the boundaries of a text say. -/
structure Places (source : String) : Prop where
  behind : ∀ front back, source = front ++ back →
    (Place.ofOffset source.toList front.utf8ByteSize).Behind front
  increasing : ∀ offset next, Boundary source offset → Boundary source next → offset < next →
    Prod.Lex (· < ·) (· < ·)
      ((Place.ofOffset source.toList offset).line, (Place.ofOffset source.toList offset).column)
      ((Place.ofOffset source.toList next).line, (Place.ofOffset source.toList next).column)
  returns : ∀ offset, Boundary source offset →
    offsetAt source.toList ((Place.ofOffset source.toList offset).line - 1)
      (Place.ofOffset source.toList offset).column = offset

theorem places (source : String) : Places source where
  behind := by
    rintro front back rfl
    have behind := behind_ofOffset front.toList back.toList
    rwa [← utf8ByteSize_ofList, String.ofList_toList, ← String.toList_append] at behind
  increasing := by
    intro offset next here there less
    obtain ⟨front, back, split, rfl⟩ := boundary_iff.mp here
    obtain ⟨longer, rest, again, rfl⟩ := boundary_iff.mp there
    have prefixes := List.prefix_or_prefix_of_prefix (split ▸ List.prefix_append front back)
      (again ▸ List.prefix_append longer rest)
    rcases prefixes with ⟨piece, rfl⟩ | ⟨piece, rfl⟩
    · have nonempty : piece ≠ [] := by
        rintro rfl
        rw [List.append_nil] at less
        exact Nat.lt_irrefl _ less
      have first : Place.ofOffset source.toList (width front) =
          ⟨width front, lineAfter front, columnAfter front⟩ := by rw [split, ofOffset_append]
      have second : Place.ofOffset source.toList (width (front ++ piece)) =
          ⟨width (front ++ piece), lineAfter (front ++ piece), columnAfter (front ++ piece)⟩ := by
        rw [again, ofOffset_append]
      rw [first, second]
      exact lex_append front nonempty
    · rw [width_append] at less
      omega
  returns := by
    intro offset here
    obtain ⟨front, back, split, rfl⟩ := boundary_iff.mp here
    rw [split, ofOffset_append]
    exact offsetAt_append front back

theorem pointsInto_of_tokenize {source : String} {error : SyntaxError}
    (run : tokenize source = .error error) : error.PointsInto source := by
  obtain ⟨front, back, split, more, stands⟩ := exists_of_tokenize_error run
  have behind := behind_ofOffset front back
  rw [← split, ← stands] at behind
  have offset : error.place.offset = width front := by rw [stands, split, ofOffset_append]
  constructor
  case boundary => exact boundary_iff.mpr ⟨front, back, split, offset⟩
  case inside =>
    have whole : source.utf8ByteSize = width front + width back := by
      rw [← width_append, ← split, ← utf8ByteSize_ofList, String.ofList_toList]
    rw [offset, whole]
    exact Nat.lt_add_of_pos_right (width_pos more)
  case behind =>
    refine ⟨String.ofList front, String.ofList back, ?_, behind⟩
    rw [← String.ofList_append, ← split, String.ofList_toList]

/-- Errors point at the source: at a boundary inside it, with the line and the column of that
boundary; and lines and columns tell the boundaries of a text apart, in their order. -/
theorem tokenize_points (source : String) :
    (∀ error, tokenize source = .error error → error.PointsInto source) ∧ Places source :=
  ⟨fun _ run => pointsInto_of_tokenize run, places source⟩

/-! A quote that is not closed, behind a line break and characters of several bytes. -/

def unclosedQuote : String := "ä<p\n  ü='ß\n"

theorem tokenize_points_unclosedQuote :
    tokenize unclosedQuote = .error ⟨.unclosedValue, ⟨10, 2, 4⟩⟩ ∧
      (⟨.unclosedValue, ⟨10, 2, 4⟩⟩ : SyntaxError).PointsInto unclosedQuote ∧
      offsetAt unclosedQuote.toList 1 4 = 10 := by
  have run : tokenize unclosedQuote = .error ⟨.unclosedValue, ⟨10, 2, 4⟩⟩ := by decide +kernel
  have place : Place.ofOffset unclosedQuote.toList 10 = ⟨10, 2, 4⟩ := by decide +kernel
  obtain ⟨points, places⟩ := tokenize_points unclosedQuote
  have returns := places.returns 10 (points _ run).boundary
  rw [place] at returns
  exact ⟨run, points _ run, returns⟩

end ViewTemplates.Markup
