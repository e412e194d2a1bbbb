/-!
Sets of code points, written as runs with both ends. The tables of this library hold the code
points from U+0080 on; the classes that use them decide ASCII by themselves.
-/

namespace ViewTemplates.Text

def within (runs : List (Nat × Nat)) (c : Char) : Bool :=
  runs.any fun run => run.1 ≤ c.toNat && c.toNat ≤ run.2

@[simp] theorem within_nil (c : Char) : within [] c = false := rfl

@[simp] theorem within_cons (run : Nat × Nat) (runs : List (Nat × Nat)) (c : Char) :
    within (run :: runs) c = ((decide (run.1 ≤ c.toNat) && decide (c.toNat ≤ run.2)) ||
      within runs c) := rfl

end ViewTemplates.Text
