import ViewTemplates.Text.CodePoints

/-!
White space as the Unicode property of that name, and what is cut along it: a text without its
outer blanks, and the words of a text.
-/

namespace ViewTemplates.Text

def wideBlanks : List (Nat × Nat) := [
    (0x85, 0x85), (0xa0, 0xa0), (0x1680, 0x1680), (0x2000, 0x200a), (0x2028, 0x2029),
    (0x202f, 0x202f), (0x205f, 0x205f), (0x3000, 0x3000)]

/-- Tab, line feed, vertical tab, form feed, carriage return, space, and the wide blanks. -/
def isBlank (c : Char) : Bool :=
  if c.toNat < 128 then c == ' ' || (9 ≤ c.toNat && c.toNat ≤ 13) else within wideBlanks c

/-- The text without the blanks at its two ends. -/
def trim (text : List Char) : List Char :=
  ((text.dropWhile isBlank).reverse.dropWhile isBlank).reverse

/-- The maximal runs of characters that are not blank. -/
def words (text : List Char) : List (List Char) :=
  (text.splitBy fun left right => isBlank left == isBlank right).filter
    fun run => !run.any isBlank

end ViewTemplates.Text
