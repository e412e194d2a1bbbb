import ViewTemplates.Json.Basic
import ViewTemplates.Json.Lexeme

/-!
JSON values from text. The reader keeps a stack of the arrays and objects it is inside of, so depth
has no limit.
-/

namespace ViewTemplates.Json

/-- An array or object that is still open, its parts so far from the last to the first. -/
inductive Frame where
  | items (done : List (Json (Option String)))
  | members (done : List (Option String × Json (Option String))) (key : Option String)

mutual

/-- A value is due. -/
def readValue (stack : List Frame) : List Lexeme → Option (Json (Option String))
  | .null :: rest => placeValue stack .null rest
  | .bool value :: rest => placeValue stack (.bool value) rest
  | .number spelling :: rest => placeValue stack (.number spelling) rest
  | .text value :: rest => placeValue stack (.text value) rest
  | .openArray :: .closeArray :: rest => placeValue stack (.array []) rest
  | .openArray :: rest => readValue (.items [] :: stack) rest
  | .openObject :: .closeObject :: rest => placeValue stack (.object []) rest
  | .openObject :: .text key :: .colon :: rest => readValue (.members [] key :: stack) rest
  | _ => none

/-- A value has been read. -/
def placeValue (stack : List Frame) (value : Json (Option String)) :
    List Lexeme → Option (Json (Option String))
  | [] => if stack.isEmpty then some value else none
  | .comma :: rest =>
      match stack with
      | .items done :: outer => readValue (.items (value :: done) :: outer) rest
      | .members done key :: outer =>
          match rest with
          | .text next :: .colon :: rest =>
              readValue (.members ((key, value) :: done) next :: outer) rest
          | _ => none
      | [] => none
  | .closeArray :: rest =>
      match stack with
      | .items done :: outer => placeValue outer (.array (value :: done).reverse) rest
      | _ => none
  | .closeObject :: rest =>
      match stack with
      | .members done key :: outer =>
          placeValue outer (.object ((key, value) :: done).reverse) rest
      | _ => none
  | _ => none

end

def parse (source : String) : Option (Json (Option String)) := do
  readValue [] (← lexemes? source.toList)

end ViewTemplates.Json
