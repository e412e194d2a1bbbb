import ViewTemplates.Text.Search

/-!
Search inside a text. A run of characters ends at the first one of another sort; what stands before
the first occurrence of a text does not hold it, what stands behind any occurrence stands behind the
first one, and the end of a comment is found where it was put.
-/

namespace ViewTemplates.Text

/-! Runs. -/

section Run

variable {α : Type} {p : α → Bool}

/-- A list falls in one way into members of a class and a rest that begins with no member. -/
theorem span_iff {source front back : List α} :
    (source.takeWhile p = front ∧ source.dropWhile p = back) ↔
      source = front ++ back ∧ (∀ c ∈ front, p c = true) ∧ ∀ c ∈ back.head?, p c = false := by
  constructor
  · rintro ⟨rfl, rfl⟩
    refine ⟨List.takeWhile_append_dropWhile.symm, List.all_eq_true.mp List.all_takeWhile, ?_⟩
    intro c head
    have stops := List.head?_dropWhile_not p source
    rw [Option.mem_def.mp head] at stops
    simpa using stops
  · rintro ⟨rfl, inside, stops⟩
    rw [List.takeWhile_append_of_pos inside, List.dropWhile_append_of_pos inside]
    cases back with
    | nil => exact ⟨List.append_nil _, rfl⟩
    | cons c rest =>
        rw [List.takeWhile_cons, List.dropWhile_cons, stops c rfl]
        exact ⟨List.append_nil _, rfl⟩

theorem exists_span (p : α → Bool) (source : List α) : ∃ front back, source = front ++ back ∧
    (∀ c ∈ front, p c = true) ∧ ∀ c ∈ back.head?, p c = false :=
  ⟨_, _, span_iff.mp ⟨rfl, rfl⟩⟩

/-- A run of the wanted members, and another one behind it. -/
theorem takeWhile_run {run : List α} (inside : ∀ c ∈ run, p c = true) (stop : α)
    (stops : p stop = false) (rest : List α) :
    (run ++ stop :: rest).takeWhile p = run ∧
      (run ++ stop :: rest).dropWhile p = stop :: rest := by
  refine span_iff.mpr ⟨rfl, inside, ?_⟩
  rintro _ ⟨⟩
  exact stops

/-- The first list is empty, or begins with the same member as the second. -/
def BeginsLike (short long : List α) : Prop := ∀ c ∈ short.head?, c ∈ long.head?

theorem BeginsLike.of_isPrefix {short long : List α} (starts : short <+: long) :
    BeginsLike short long := by
  obtain ⟨tail, rfl⟩ := starts
  cases short with
  | nil => exact nofun
  | cons => exact fun _ head => head

theorem BeginsLike.cons (c : α) (kept rest : List α) : BeginsLike (c :: kept) (c :: rest) :=
  fun _ head => head

theorem BeginsLike.append {kept rest : List α} (alike : BeginsLike kept rest) (front : List α) :
    BeginsLike (front ++ kept) (front ++ rest) := by
  cases front with
  | nil => exact alike
  | cons => exact .cons _ _ _

/-- A run, and what is taken behind it: the run ends at the same place with any rest that begins
alike. -/
theorem span_cut (front : List α) {source rest : List α}
    (dropped : source.dropWhile p = front ++ rest) :
    source = (source.takeWhile p ++ front) ++ rest ∧
      ∀ kept, BeginsLike (front ++ kept) (front ++ rest) →
        ((source.takeWhile p ++ front) ++ kept).takeWhile p = source.takeWhile p ∧
          ((source.takeWhile p ++ front) ++ kept).dropWhile p = front ++ kept := by
  obtain ⟨whole, inside, stops⟩ := span_iff.mp ⟨rfl, dropped⟩
  refine ⟨by rwa [List.append_assoc], fun kept alike => ?_⟩
  exact span_iff.mpr ⟨List.append_assoc .., inside, fun c head => stops c (alike c head)⟩

theorem ne_of_notMem [DecidableEq α] {stop : α} {list : List α} (free : stop ∉ list) :
    ∀ member ∈ list, (member != stop) = true := by
  intro other member
  rw [bne_iff_ne]
  rintro rfl
  exact free member

end Run

/-! Occurrences. -/

theorem contains_cons {pattern : List Char} {c : Char} {rest : List Char} :
    contains pattern (c :: rest) = (pattern.isPrefixOf (c :: rest) || contains pattern rest) := by
  simp only [contains, splitAtFirst]
  split
  next starts => simp [starts]
  next other =>
    rw [Option.isSome_map, Bool.eq_false_iff.mpr other]
    rfl

/-- The text found first is not found again in what precedes it. -/
theorem contains_before {pattern text before after : List Char} (nonempty : pattern ≠ [])
    (found : splitAtFirst pattern text = some (before, after)) :
    contains pattern before = false := by
  have absent : contains pattern [] = false := by
    cases pattern with
    | nil => contradiction
    | cons => rfl
  induction text generalizing before with
  | nil =>
      simp only [splitAtFirst] at found
      split at found
      · cases found
        exact absent
      · contradiction
  | cons c rest induction =>
      simp only [splitAtFirst] at found
      split at found
      next =>
        cases found
        exact absent
      next other =>
        obtain ⟨⟨earlier, later⟩, inner, pair⟩ := Option.map_eq_some_iff.mp found
        cases pair
        have whole := append_of_splitAtFirst inner
        have differs : pattern.isPrefixOf (c :: earlier) = false := by
          apply Bool.eq_false_iff.mpr
          intro starts
          apply other
          rw [List.isPrefixOf_iff_prefix] at starts ⊢
          apply starts.trans
          rw [whole, List.append_assoc, ← List.cons_append]
          exact List.prefix_append _ _
        rw [contains_cons, differs, induction inner]
        rfl

/-- A text holds a pattern if the pattern stands anywhere in it. -/
theorem contains_iff_isInfix {pattern text : List Char} :
    contains pattern text = true ↔ pattern <:+: text := by
  induction text with
  | nil => cases pattern <;> simp [contains, splitAtFirst]
  | cons c rest induction =>
      rw [contains_cons, Bool.or_eq_true, List.isPrefixOf_iff_prefix, induction,
        List.infix_cons_iff]

/-- A text that holds a longer pattern holds how it begins. -/
theorem contains_of_prefix {short long text : List Char} (starts : short <+: long)
    (holds : contains long text = true) : contains short text = true :=
  contains_iff_isInfix.mpr (starts.isInfix.trans (contains_iff_isInfix.mp holds))

section first
variable {pattern text before after earlier later : List Char}

theorem exists_splitAtFirst (split : text = earlier ++ pattern ++ later) :
    ∃ before after, splitAtFirst pattern text = some (before, after) := by
  have holds : contains pattern text = true := contains_iff_isInfix.mpr ⟨earlier, later, split.symm⟩
  obtain ⟨⟨before, after⟩, found⟩ := Option.isSome_iff_exists.mp holds
  exact ⟨before, after, found⟩

/-- In front of the occurrence found first stands no more than in front of any other. -/
theorem length_le_of_splitAtFirst (found : splitAtFirst pattern text = some (before, after))
    (split : text = earlier ++ pattern ++ later) : before.length ≤ earlier.length := by
  induction text generalizing before earlier with
  | nil =>
      have nothing := append_of_splitAtFirst found
      simp_all
  | cons c rest induction =>
      simp only [splitAtFirst] at found
      split at found
      next =>
        cases found
        exact Nat.zero_le _
      next other =>
        obtain ⟨⟨inner, behind⟩, further, pair⟩ := Option.map_eq_some_iff.mp found
        cases pair
        cases earlier with
        | nil =>
            rw [List.nil_append] at split
            exact absurd (List.isPrefixOf_iff_prefix.mpr ⟨later, split.symm⟩) other
        | cons head tail =>
            have rest := (List.cons.inj split).2
            exact Nat.succ_le_succ (induction further rest)

/-- What stands behind any occurrence stands behind the first one too. -/
theorem suffix_of_splitAtFirst (found : splitAtFirst pattern text = some (before, after))
    (split : text = earlier ++ pattern ++ later) : later <:+ after := by
  have whole := append_of_splitAtFirst found
  have shorter := length_le_of_splitAtFirst found split
  apply List.suffix_of_suffix_length_le ⟨_, split.symm⟩ ⟨_, whole.symm⟩
  have lengths := congrArg List.length (whole.symm.trans split)
  simp only [List.length_append] at lengths
  omega

end first

def commentEnd : List Char := ['-', '-', '>']

/-- A text that does not end comments is followed by the first end of a comment. No occurrence
begins inside it, as the last character of the end is none of those before. -/
theorem splitAtFirst_commentEnd {value : List Char} (rest : List Char)
    (within : contains commentEnd value = false) :
    splitAtFirst commentEnd (value ++ (commentEnd ++ rest)) = some (value, rest) := by
  induction value with
  | nil => simp [commentEnd, splitAtFirst]
  | cons c tail induction =>
      rw [contains_cons, Bool.or_eq_false_iff] at within
      have differs : commentEnd.isPrefixOf (c :: (tail ++ (commentEnd ++ rest))) = false := by
        rcases tail with _ | ⟨second, _ | ⟨third, others⟩⟩
        · simp [commentEnd, List.isPrefixOf]
        · simp [commentEnd, List.isPrefixOf]
        · simpa [commentEnd, List.isPrefixOf] using within.1
      rw [List.cons_append, splitAtFirst, differs, induction within.2]
      rfl

end ViewTemplates.Text
