/-!
JSON values over a kind of text. Written values have strings for texts; in values that were read a
text is missing where its escapes leave half of a surrogate pair.
-/

namespace ViewTemplates

/-- A JSON value. Numbers keep their spelling, and members their order and repetitions. -/
inductive Json (σ : Type) where
  | null
  | bool (value : Bool)
  | number (spelling : String)
  | text (value : σ)
  | array (items : List (Json σ))
  | object (members : List (σ × Json σ))

namespace Json

def nat (value : Nat) : Json σ := .number (toString value)

end Json

end ViewTemplates
