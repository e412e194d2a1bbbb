import ViewTemplates.Selector.Basic
import ViewTemplates.Selector.Item

/-!
Selectors from text. A text that consists of items is taken as comma separated alternatives; what
stands between items, an open or stray bracket and an empty alternative are refused.
-/

namespace ViewTemplates.Selector

open Text

inductive Fault where
  | empty
  | combinator
  | unexpected (text : String)
  | bareDollar (name : String)
  | nestedNot
  | strayClose
  | commaInNot
  | unclosedNot
  | emptyAlternative
  deriving Repr, DecidableEq

def Fault.message : Fault → String
  | empty => "selector is empty"
  | combinator => "Combinators are not supported in directive selectors"
  | unexpected text => s!"Unexpected \"{text}\""
  | bareDollar name =>
      s!"Error in attribute selector \"{name}\". Unescaped \"$\" is not supported. " ++
        "Please escape with \"\\$\"."
  | nestedNot => "Nesting :not in a selector is not allowed"
  | strayClose => "Unbalanced \")\""
  | commaInNot => "Multiple selectors in :not are not supported"
  | unclosedNot => "Unterminated :not("
  | emptyAlternative => "Empty selector in list"

/-- An attribute name with its backslashes taken out. A dollar sign has to stand behind one. -/
def unescape (escaped : Bool) : List Char → Option (List Char)
  | [] => some []
  | c :: rest =>
      if c = '\\' then unescape true rest
      else if c = '$' ∧ escaped = false then none
      else (unescape false rest).map (c :: ·)

/-- Alternatives that are complete, the one that is being read, and the open `:not` group. -/
structure Draft where
  complete : List Selector
  required : Compound
  excluded : List Compound
  group : Option Compound
  deriving Repr, DecidableEq

namespace Draft

def empty : Draft := ⟨[], .empty, [], none⟩

def modify (draft : Draft) (f : Compound → Compound) : Draft :=
  match draft.group with
  | some group => { draft with group := some (f group) }
  | none => { draft with required := f draft.required }

/-- Complete the alternative. One that only excludes requires any element. -/
def complete? (draft : Draft) : Except Fault Draft :=
  if draft.required = .empty then
    if draft.excluded = [] then .error .emptyAlternative
    else
      .ok ⟨draft.complete ++ [⟨Compound.empty.withElement "*", draft.excluded⟩], .empty, [], none⟩
  else .ok ⟨draft.complete ++ [⟨draft.required, draft.excluded⟩], .empty, [], none⟩

def add (draft : Draft) (item : Item) : Except Fault Draft :=
  match item with
  | .element name => .ok (draft.modify (·.withElement name))
  | .hasClass name => .ok (draft.modify (·.addClass name))
  | .hasId value => .ok (draft.modify (·.addAttribute "id" value))
  | .attribute name value =>
      match unescape false name.toList with
      | none => .error (.bareDollar name)
      | some plain => .ok (draft.modify (·.addAttribute (String.ofList plain) value))
  | .openNot =>
      match draft.group with
      | some _ => .error .nestedNot
      | none => .ok { draft with group := some .empty }
  | .closeNot =>
      match draft.group with
      | none => .error .strayClose
      | some group => .ok { draft with excluded := draft.excluded ++ [group], group := none }
  | .comma => if draft.group.isSome then .error .commaInNot else draft.complete?

def addAll (draft : Draft) : List Item → Except Fault Draft
  | [] => .ok draft
  | item :: rest =>
      match draft.add item with
      | .error fault => .error fault
      | .ok next => next.addAll rest

def finish (draft : Draft) : Except Fault (List Selector) :=
  if draft.group.isSome then .error .unclosedNot
  else match draft.complete? with
    | .error fault => .error fault
    | .ok last => .ok last.complete

end Draft

def gapFault (left : List Char) : Fault :=
  let text := trim (Item.gap left)
  if text = [] ∨ text = ['>'] ∨ text = ['+'] ∨ text = ['~'] then .combinator
  else .unexpected (String.ofList text)

def parse (source : String) : Except Fault (List Selector) :=
  match trim source.toList with
  | [] => .error .empty
  | trimmed =>
      match Draft.empty.addAll (Item.scan trimmed).1 with
      | .error fault => .error fault
      | .ok draft =>
          match (Item.scan trimmed).2 with
          | [] => draft.finish
          | left => .error (gapFault left)

end ViewTemplates.Selector
