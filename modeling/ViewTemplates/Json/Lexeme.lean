/-!
The words of JSON: brackets, separators, literals, numbers and strings, with the blanks between them
dropped.
-/

namespace ViewTemplates.Json

inductive Lexeme where
  | openArray
  | closeArray
  | openObject
  | closeObject
  | comma
  | colon
  | null
  | bool (value : Bool)
  | number (spelling : String)
  | text (value : Option String)
  deriving Repr, DecidableEq

def hexDigit? (c : Char) : Option Nat :=
  if c.isDigit then some (c.toNat - '0'.toNat)
  else if 'a' ≤ c ∧ c ≤ 'f' then some (c.toNat - 'a'.toNat + 10)
  else if 'A' ≤ c ∧ c ≤ 'F' then some (c.toNat - 'A'.toNat + 10)
  else none

def shortEscape? (c : Char) : Option Char :=
  match c with
  | '"' => some '"'
  | '\\' => some '\\'
  | '/' => some '/'
  | 'b' => some '\x08'
  | 'f' => some '\x0c'
  | 'n' => some '\n'
  | 'r' => some '\r'
  | 't' => some '\t'
  | _ => none

/-- The code points of a string up to its closing quote, and what follows that. An escaped
surrogate is a code point of its own here. -/
def readCodes : List Char → Option (List Nat × List Char)
  | [] => none
  | '"' :: rest => some ([], rest)
  | '\\' :: 'u' :: a :: b :: c :: d :: rest => do
      let code := (((← hexDigit? a) * 16 + (← hexDigit? b)) * 16 + (← hexDigit? c)) * 16 +
        (← hexDigit? d)
      let (codes, after) ← readCodes rest
      pure (code :: codes, after)
  | '\\' :: c :: rest => do
      let plain ← shortEscape? c
      let (codes, after) ← readCodes rest
      pure (plain.toNat :: codes, after)
  | c :: rest =>
      if c.toNat < 32 then none
      else do
        let (codes, after) ← readCodes rest
        pure (c.toNat :: codes, after)

def isHighSurrogate (code : Nat) : Bool := 0xd800 ≤ code && code < 0xdc00

def isLowSurrogate (code : Nat) : Bool := 0xdc00 ≤ code && code < 0xe000

/-- The characters of the code points, where a high and a low surrogate make one character; a
surrogate without its partner makes none. -/
def pairUp : List Nat → Option (List Char)
  | [] => some []
  | [code] =>
      if isHighSurrogate code || isLowSurrogate code then none else some [Char.ofNat code]
  | high :: low :: rest =>
      if isHighSurrogate high then
        if isLowSurrogate low then
          (pairUp rest).map
            (Char.ofNat (0x10000 + (high - 0xd800) * 0x400 + (low - 0xdc00)) :: ·)
        else none
      else if isLowSurrogate high then none
      else (pairUp (low :: rest)).map (Char.ofNat high :: ·)

def readDigits (source : List Char) : Option (List Char × List Char) :=
  match source.takeWhile Char.isDigit with
  | [] => none
  | digits => some (digits, source.dropWhile Char.isDigit)

/-- The whole part of a number: zero, or digits that do not begin with it. -/
def readWhole (source : List Char) : Option (List Char × List Char) :=
  match source with
  | '0' :: rest => some (['0'], rest)
  | _ => readDigits source

def readFraction (source : List Char) : Option (List Char × List Char) :=
  match source with
  | '.' :: rest => (readDigits rest).map fun (digits, after) => ('.' :: digits, after)
  | _ => some ([], source)

def readExponent (source : List Char) : Option (List Char × List Char) :=
  match source with
  | c :: rest =>
      if c = 'e' ∨ c = 'E' then
        match rest with
        | '+' :: more => (readDigits more).map fun (digits, after) => (c :: '+' :: digits, after)
        | '-' :: more => (readDigits more).map fun (digits, after) => (c :: '-' :: digits, after)
        | _ => (readDigits rest).map fun (digits, after) => (c :: digits, after)
      else some ([], source)
  | [] => some ([], source)

def readUnsigned (source : List Char) : Option (List Char × List Char) := do
  let (whole, source) ← readWhole source
  let (fraction, source) ← readFraction source
  let (exponent, source) ← readExponent source
  pure (whole ++ fraction ++ exponent, source)

def isJsonBlank (c : Char) : Bool := c == ' ' || c == '\t' || c == '\n' || c == '\r'

/-- The lexeme at the front of a text that does not begin with a blank. -/
def Lexeme.read (source : List Char) : Option (Lexeme × List Char) :=
  match source with
  | '[' :: rest => some (.openArray, rest)
  | ']' :: rest => some (.closeArray, rest)
  | '{' :: rest => some (.openObject, rest)
  | '}' :: rest => some (.closeObject, rest)
  | ',' :: rest => some (.comma, rest)
  | ':' :: rest => some (.colon, rest)
  | 'n' :: 'u' :: 'l' :: 'l' :: rest => some (.null, rest)
  | 't' :: 'r' :: 'u' :: 'e' :: rest => some (.bool true, rest)
  | 'f' :: 'a' :: 'l' :: 's' :: 'e' :: rest => some (.bool false, rest)
  | '"' :: rest =>
      (readCodes rest).map fun (codes, after) => (.text ((pairUp codes).map String.ofList), after)
  | '-' :: rest =>
      (readUnsigned rest).map fun (digits, after) =>
        (.number (String.ofList ('-' :: digits)), after)
  | _ => (readUnsigned source).map fun (digits, after) => (.number (String.ofList digits), after)

/-- The lexemes of a text; every lexeme is given to a shorter rest. -/
def lexemes? (source : List Char) : Option (List Lexeme) :=
  match source.dropWhile isJsonBlank with
  | [] => some []
  | c :: rest =>
      match Lexeme.read (c :: rest) with
      | none => none
      | some (lexeme, after) =>
          if after.length < source.length then (lexemes? after).map (lexeme :: ·) else none
termination_by source.length
decreasing_by assumption

end ViewTemplates.Json
