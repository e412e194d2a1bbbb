import ViewTemplates.Selector.Basic

/-!
When a selector accepts what an element has.
-/

namespace ViewTemplates

/-- Has the element an attribute of this name whose value is the wanted one, if one is wanted? -/
def Compound.hasAttribute (subject : Compound) (wanted : String × String) : Bool :=
  subject.attributes.any fun entry =>
    entry.1 == wanted.1 && (wanted.2.isEmpty || Text.sameLetters entry.2 wanted.2)

/-- Is the element name as wanted? Where either side leaves it open, it is. -/
def Compound.hasElement (subject : Compound) (wanted : Option String) : Bool :=
  match subject.element, wanted with
  | some name, some other => name == other || other == "*"
  | _, _ => true

def Compound.satisfies (subject pattern : Compound) : Bool :=
  subject.hasElement pattern.element && pattern.classes.all subject.classes.contains &&
    pattern.attributes.all subject.hasAttribute

/-- Has the element all that is required, and all of no excluded compound? -/
def Selector.accepts (pattern : Selector) (subject : Compound) : Bool :=
  subject.satisfies pattern.required && !pattern.excluded.any subject.satisfies

end ViewTemplates
