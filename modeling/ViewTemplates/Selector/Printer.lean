import ViewTemplates.Selector.Basic

/-!
Selectors as text: the element name, classes, attributes and excluded compounds, in this order.
-/

namespace ViewTemplates

namespace Selector

/-- Write a backslash in front of every dollar sign. -/
def escapeDollars : List Char → List Char
  | [] => []
  | c :: rest => if c = '$' then '\\' :: c :: escapeDollars rest else c :: escapeDollars rest

def printAttribute (entry : String × String) : String :=
  let name := String.ofList (escapeDollars entry.1.toList)
  if entry.2.isEmpty then s!"[{name}]" else s!"[{name}={entry.2}]"

end Selector

def Compound.print (compound : Compound) : String :=
  compound.element.getD "" ++ String.join (compound.classes.map ("." ++ ·)) ++
    String.join (compound.attributes.map Selector.printAttribute)

def Selector.print (selector : Selector) : String :=
  selector.required.print ++
    String.join (selector.excluded.map fun group => ":not(" ++ group.print ++ ")")

end ViewTemplates
