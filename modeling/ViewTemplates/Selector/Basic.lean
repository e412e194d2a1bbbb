import ViewTemplates.Node
import ViewTemplates.Text.Blank

/-!
Selectors. A compound lists what is asked of one element, or what one element has; a selector is a
compound together with the compounds that it excludes.
-/

namespace ViewTemplates

/-- An element name, classes and attributes. Classes and attribute values are in lower case. -/
structure Compound where
  element : Option String
  classes : List String
  attributes : List (String × String)
  deriving Repr, DecidableEq

namespace Compound

def empty : Compound := ⟨none, [], []⟩

def withElement (compound : Compound) (name : String) : Compound :=
  { compound with element := some name }

def addClass (compound : Compound) (name : String) : Compound :=
  { compound with classes := compound.classes ++ [Text.lowered name] }

def addAttribute (compound : Compound) (name value : String) : Compound :=
  { compound with attributes := compound.attributes ++ [(name, Text.lowered value)] }

def attribute? (compound : Compound) (name : String) : Option String :=
  (compound.attributes.find? fun entry => entry.1 == name).map Prod.snd

def namesElement (compound : Compound) : Bool :=
  match compound.element with
  | some name => name != "*"
  | none => false

/-- Is an element asked for by name, and nothing else? -/
def isElementOnly (compound : Compound) : Bool :=
  compound.namesElement && compound.classes.isEmpty && compound.attributes.isEmpty

def classesOf (entry : String × String) : List String :=
  if Text.sameLetters entry.1 "class" then (Text.words entry.2.toList).map String.ofList else []

/-- What an element with this name and these attributes has. -/
def ofElement (name : String) (attributes : Attributes) : Compound :=
  attributes.foldl
    (fun compound entry =>
      (classesOf entry).foldl addClass (compound.addAttribute entry.1 entry.2))
    (empty.withElement name)

end Compound

/-- A compound that has to hold, and compounds of which none may hold. -/
structure Selector where
  required : Compound
  excluded : List Compound
  deriving Repr, DecidableEq

end ViewTemplates
