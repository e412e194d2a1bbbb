import ViewTemplates.Event
import ViewTemplates.Markup.Tokens

/-!
Nesting of tokens. A row of tokens always makes a forest: an end tag closes the innermost open
element of its name and all that was opened inside it, one without such an element is skipped, and
what is open at the end is closed there.
-/

namespace ViewTemplates.Markup

/-- An element that is still open, and its siblings to the left. -/
structure Opened where
  name : String
  attributes : Attributes
  left : Forest NodeKind
  deriving Repr, DecidableEq

/-- The open elements, the innermost first, and what stands inside the innermost so far. -/
structure Nesting where
  opened : List Opened
  inside : Forest NodeKind
  deriving Repr, DecidableEq

namespace Nesting

def empty : Nesting := ⟨[], .nil⟩

def add (nesting : Nesting) (kind : NodeKind) : Nesting :=
  { nesting with inside := nesting.inside ++ .leaf kind }

def openElement (nesting : Nesting) (name : String) (attributes : Attributes) : Nesting :=
  ⟨⟨name, attributes, nesting.inside⟩ :: nesting.opened, .nil⟩

/-- What stands outside the given open elements once these are closed around a forest. -/
def enclose : List Opened → Forest NodeKind → Forest NodeKind
  | [], inside => inside
  | frame :: outer, inside =>
      enclose outer (frame.left ++ .tree (.element frame.name frame.attributes) inside)

def close (nesting : Nesting) (count : Nat) : Nesting :=
  ⟨nesting.opened.drop count, enclose (nesting.opened.take count) nesting.inside⟩

/-- How many open elements lie inside the innermost one of this name. -/
def depthOf? (nesting : Nesting) (name : String) : Option Nat :=
  nesting.opened.findIdx? fun frame => Text.sameLetters frame.name name

def consume (nesting : Nesting) (placed : Placed) : Nesting × List Event :=
  match placed.token with
  | .text value => (nesting.add (.text value), [])
  | .comment value => (nesting.add (.comment value), [])
  | .startTag name attributes selfClosing =>
      match selfClosing || isVoid name with
      | true => (nesting.add (.element name attributes), [])
      | false => (nesting.openElement name attributes, [])
  | .endTag name =>
      match nesting.depthOf? name with
      | some depth =>
          (nesting.close (depth + 1),
            if depth = 0 then [] else [.impliedEndTags name placed.offset depth])
      | none =>
          match isVoid name with
          | true => (nesting, [])
          | false => (nesting, [.strayEndTag name placed.offset])

def consumeAll (nesting : Nesting) : List Placed → Nesting × List Event
  | [] => (nesting, [])
  | placed :: rest =>
      let (next, events) := nesting.consume placed
      let (last, later) := next.consumeAll rest
      (last, events ++ later)

def finish (nesting : Nesting) : Forest NodeKind × List Event :=
  (enclose nesting.opened nesting.inside,
    (nesting.opened.getLast?.map fun frame => Event.openAtEnd frame.name).toList)

end Nesting

def nest (tokens : List Placed) : Forest NodeKind × List Event :=
  let (nesting, events) := Nesting.empty.consumeAll tokens
  let (forest, last) := nesting.finish
  (forest, events ++ last)

def parse (source : String) : Except SyntaxError (Forest NodeKind × List Event) :=
  match tokenize source with
  | .error error => .error error
  | .ok tokens => .ok (nest tokens)

end ViewTemplates.Markup
