import ViewTemplates.Forest
import ViewTemplates.Text.Case

/-!
Template nodes: elements with their attributes in order, texts, comments, and the fragments that
only gather other nodes.
-/

namespace ViewTemplates

/-- Attribute names with their values, in order of first appearance. -/
abbrev Attributes := List (String × String)

namespace Attributes

def get? (attributes : Attributes) (name : String) : Option String :=
  (attributes.find? fun entry => entry.1 == name).map Prod.snd

/-- Give the name a value: in its place if it is there, behind all others if not. -/
def set (attributes : Attributes) (name value : String) : Attributes :=
  match attributes with
  | [] => [(name, value)]
  | entry :: rest =>
      if entry.1 == name then (entry.1, value) :: rest else entry :: Attributes.set rest name value

def erase (attributes : Attributes) (name : String) : Attributes :=
  attributes.eraseP fun entry => entry.1 == name

/-- Add the entry unless its name has a value already. -/
def offer (attributes : Attributes) (entry : String × String) : Attributes :=
  if attributes.any fun earlier => earlier.1 == entry.1 then attributes else attributes ++ [entry]

end Attributes

/-- What a node is, without its place in a tree. -/
inductive NodeKind where
  | fragment
  | element (name : String) (attributes : Attributes)
  | text (value : String)
  | comment (value : String)
  deriving Repr, DecidableEq

namespace NodeKind

def isElement : NodeKind → Bool
  | element .. => true
  | _ => false

def tag? : NodeKind → Option String
  | element name _ => some name
  | _ => none

def attributes? : NodeKind → Option Attributes
  | element _ attributes => some attributes
  | _ => none

def text? : NodeKind → Option String
  | text value | comment value => some value
  | _ => none

def isContainer : NodeKind → Bool
  | fragment | element .. => true
  | _ => false

end NodeKind

def voidNames : List String :=
  ["area", "base", "br", "col", "embed", "hr", "img", "input", "link", "meta", "param", "source",
    "track", "wbr"]

def isVoid (name : String) : Bool :=
  voidNames.any fun void => Text.sameLetters void name

end ViewTemplates
