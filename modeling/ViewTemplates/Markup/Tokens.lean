import ViewTemplates.Markup.Token
import ViewTemplates.Markup.Place

/-!
A whole text as tokens, each with the offset at which it begins.
-/

namespace ViewTemplates.Markup

structure Placed where
  token : Token
  offset : Nat
  deriving Repr, DecidableEq

structure SyntaxError where
  fault : Fault
  place : Place
  deriving Repr, DecidableEq

def SyntaxError.message (error : SyntaxError) : String :=
  s!"{error.fault.message} ({error.place.line}:{error.place.column})"

/-- The tokens of a text that begins at the offset, or a fault and its offset. Every token leaves a
shorter text, so the bound that ends the recursion always holds. -/
def tokensFrom (offset : Nat) (source : List Char) : Except (Fault × Nat) (List Placed) :=
  match source with
  | [] => .ok []
  | c :: tail =>
      match Token.read (c :: tail) with
      | .error blame =>
          .error (blame.fault, offset + (width (c :: tail) - width blame.found))
      | .ok (token, rest) =>
          if rest.length < (c :: tail).length then
            match tokensFrom (offset + (width (c :: tail) - width rest)) rest with
            | .error failure => .error failure
            | .ok tokens => .ok (⟨token, offset⟩ :: tokens)
          else .ok []
termination_by source.length
decreasing_by assumption

@[simp] theorem tokensFrom_nil (offset : Nat) : tokensFrom offset [] = .ok [] := by
  rw [tokensFrom]

theorem tokensFrom_of_error {offset : Nat} {c : Char} {tail : List Char} {blame : Blame}
    (read : Token.read (c :: tail) = .error blame) :
    tokensFrom offset (c :: tail) =
      .error (blame.fault, offset + (width (c :: tail) - width blame.found)) := by
  rw [tokensFrom, read]

theorem tokensFrom_of_read {offset : Nat} {c : Char} {tail rest : List Char} {token : Token}
    (read : Token.read (c :: tail) = .ok (token, rest)) :
    tokensFrom offset (c :: tail) =
      match tokensFrom (offset + (width (c :: tail) - width rest)) rest with
      | .error failure => .error failure
      | .ok tokens => .ok (⟨token, offset⟩ :: tokens) := by
  rw [tokensFrom, read]
  simp only [if_pos (Token.read_length read)]

def tokenize (source : String) : Except SyntaxError (List Placed) :=
  match tokensFrom 0 source.toList with
  | .error (fault, offset) => .error ⟨fault, .ofOffset source.toList offset⟩
  | .ok tokens => .ok tokens

end ViewTemplates.Markup
