import ViewTemplates.Json.Basic

/-!
JSON values as text: on one line without blanks, or one item a line.
-/

namespace ViewTemplates.Json

def hexChar (digit : Nat) : Char :=
  if digit < 10 then Char.ofNat ('0'.toNat + digit) else Char.ofNat ('a'.toNat + digit - 10)

/-- Quotes, backslashes and control characters are escaped, and nothing else. -/
def escape (c : Char) : List Char :=
  if c = '"' then ['\\', '"']
  else if c = '\\' then ['\\', '\\']
  else if c = '\x08' then ['\\', 'b']
  else if c = '\x0c' then ['\\', 'f']
  else if c = '\n' then ['\\', 'n']
  else if c = '\r' then ['\\', 'r']
  else if c = '\t' then ['\\', 't']
  else if c.toNat < 32 then ['\\', 'u', '0', '0', hexChar (c.toNat / 16), hexChar (c.toNat % 16)]
  else [c]

def quote (text : String) : String :=
  "\"" ++ String.ofList (text.toList.flatMap escape) ++ "\""

mutual

def compact : Json String → String
  | .null => "null"
  | .bool value => if value then "true" else "false"
  | .number spelling => spelling
  | .text value => quote value
  | .array items => "[" ++ ",".intercalate (compactItems items) ++ "]"
  | .object members => "\x7b" ++ ",".intercalate (compactMembers members) ++ "\x7d"

def compactItems : List (Json String) → List String
  | [] => []
  | item :: rest => compact item :: compactItems rest

def compactMembers : List (String × Json String) → List String
  | [] => []
  | (key, value) :: rest => (quote key ++ ":" ++ compact value) :: compactMembers rest

end

def newline (depth : Nat) : String := "\n" ++ String.ofList (List.replicate (2 * depth) ' ')

mutual

def pretty (depth : Nat) : Json String → String
  | .null => "null"
  | .bool value => if value then "true" else "false"
  | .number spelling => spelling
  | .text value => quote value
  | .array [] => "[]"
  | .array (item :: rest) =>
      "[" ++ ",".intercalate (prettyItems (depth + 1) (item :: rest)) ++ newline depth ++ "]"
  | .object [] => "\x7b\x7d"
  | .object (member :: rest) =>
      "\x7b" ++ ",".intercalate (prettyMembers (depth + 1) (member :: rest)) ++ newline depth ++
        "\x7d"

def prettyItems (depth : Nat) : List (Json String) → List String
  | [] => []
  | item :: rest => (newline depth ++ pretty depth item) :: prettyItems depth rest

def prettyMembers (depth : Nat) : List (String × Json String) → List String
  | [] => []
  | (key, value) :: rest =>
      (newline depth ++ quote key ++ ": " ++ pretty depth value) :: prettyMembers depth rest

end

end ViewTemplates.Json
