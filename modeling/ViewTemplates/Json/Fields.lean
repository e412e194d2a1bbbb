import ViewTemplates.Json.Basic

/-!
Records in JSON: fields by name in an object, or by place in an array.
-/

namespace ViewTemplates.Json

def valuesOf (key : String) (members : List (Option String × Json (Option String))) :
    List (Json (Option String)) :=
  members.filterMap fun (name, value) => if name = some key then some value else none

/-- The fields of a record, from an object in any order or from an array in this order. An object
may have other members, but no name twice and no name without a text; a missing field is none. -/
def fields? (names : List String) :
    Json (Option String) → Option (List (Option (Json (Option String))))
  | .object members =>
      if members.all (·.1.isSome) && names.all fun name => (valuesOf name members).length ≤ 1 then
        some (names.map fun name => (valuesOf name members).head?)
      else none
  | .array items =>
      if items.length ≤ names.length then
        some (items.map some ++ List.replicate (names.length - items.length) none)
      else none
  | _ => none

def optional (read : Json (Option String) → Option α) (missing : α) :
    Option (Json (Option String)) → Option α
  | none => some missing
  | some value => read value

def string? : Json (Option String) → Option String
  | .text value => value
  | _ => none

end ViewTemplates.Json
