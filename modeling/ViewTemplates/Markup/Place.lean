/-!
Places in a text. Offsets count the bytes of UTF-8; a place for readers is a line from one and a
column from zero, where a column is a code point.
-/

namespace ViewTemplates.Markup

def width : List Char → Nat
  | [] => 0
  | c :: rest => c.utf8Size + width rest

@[simp] theorem width_append (first second : List Char) :
    width (first ++ second) = width first + width second := by
  induction first with
  | nil => simp [width]
  | cons c rest induction => simp [width, induction, Nat.add_assoc]

/-- The characters that begin before the offset. -/
def before (source : List Char) (offset : Nat) : List Char :=
  match source with
  | [] => []
  | c :: rest => if offset = 0 then [] else c :: before rest (offset - c.utf8Size)

@[simp] theorem before_append (first second : List Char) :
    before (first ++ second) (width first) = first := by
  induction first with
  | nil => cases second <;> simp [before, width]
  | cons c rest induction =>
      have := c.utf8Size_pos
      simp only [List.cons_append, before, width]
      rw [if_neg (by omega), show c.utf8Size + width rest - c.utf8Size = width rest by omega,
        induction]

structure Place where
  offset : Nat
  line : Nat
  column : Nat
  deriving Repr, DecidableEq

def lineAfter (text : List Char) : Nat := text.count '\n' + 1

def columnAfter (text : List Char) : Nat := (text.reverse.takeWhile (· != '\n')).length

def Place.ofOffset (source : List Char) (offset : Nat) : Place :=
  ⟨offset, lineAfter (before source offset), columnAfter (before source offset)⟩

end ViewTemplates.Markup
