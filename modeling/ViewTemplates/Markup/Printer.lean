import ViewTemplates.Node

/-!
Nodes written as markup. Texts and comments are written as they are, a double quote in an attribute
value as a character reference, and void elements without content or end tag.
-/

namespace ViewTemplates.Markup

def printValue : List Char → List Char
  | [] => []
  | c :: rest => (if c = '"' then "&quot;".toList else [c]) ++ printValue rest

def printAttributes : Attributes → List Char
  | [] => []
  | (name, value) :: rest =>
      ' ' :: name.toList ++ ['=', '"'] ++ printValue value.toList ++ ['"'] ++ printAttributes rest

def print : Forest NodeKind → List Char
  | .nil => []
  | .cons kind below rest =>
      (match kind with
        | .fragment => print below
        | .element name attributes =>
            '<' :: name.toList ++ printAttributes attributes ++ ['>'] ++
              match isVoid name with
              | true => []
              | false => print below ++ ['<', '/'] ++ name.toList ++ ['>']
        | .text value => value.toList
        | .comment value => "<!--".toList ++ value.toList ++ "-->".toList) ++ print rest

def html (forest : Forest NodeKind) : String := String.ofList (print forest)

end ViewTemplates.Markup
