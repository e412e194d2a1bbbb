/-!
File names with slashes between their parts.
-/

namespace ViewTemplates.Path

def parts : List Char → List (List Char)
  | [] => [[]]
  | '/' :: rest => [] :: parts rest
  | c :: rest =>
      match parts rest with
      | part :: more => (c :: part) :: more
      | [] => [[c]]

/-- Drop the parts at the end that name nothing: empty ones and dots. -/
def dropNothing (named : List (List Char)) : List (List Char) :=
  (named.reverse.dropWhile fun last => last = [] || last = ['.']).reverse

/-- In a relative name the first part counts, even if it is a dot. -/
def dropRelative : List (List Char) → List (List Char)
  | [] => []
  | first :: rest => first :: dropNothing rest

def slashed (named : List (List Char)) : String := "/".intercalate (named.map String.ofList)

/-- The name of the directory that the file is in, as far as it is written. -/
def directory (path : String) : String :=
  match path.toList with
  | '/' :: rest => "/" ++ slashed (dropNothing (dropNothing (parts rest)).dropLast)
  | relative => slashed (dropRelative (dropRelative (parts relative)).dropLast)

/-- The file name as seen from the directory. -/
def join (directory file : String) : String :=
  if file.toList.head? = some '/' then file
  else if directory.toList.getLast?.all (· == '/') then directory ++ file
  else directory ++ "/" ++ file

end ViewTemplates.Path
