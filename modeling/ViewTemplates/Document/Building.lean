import ViewTemplates.Document.Subtree

/-!
Markup read into a document token by token: every node is created and then appended to the innermost
element that is open, through the operations that everything else uses on documents.
-/

namespace ViewTemplates

inductive ParseFault where
  | malformed (error : Markup.SyntaxError)
  | hierarchy (fault : HierarchyFault)
  deriving Repr, DecidableEq

/-- A document that markup is read into: the fragment that holds the new nodes, and the elements
that are open with their names, the innermost first. -/
structure Building where
  doc : Document
  root : NodeId
  opened : List (NodeId × String)
  deriving Repr, DecidableEq

/-- Create an element and give it its attributes one by one. -/
def Document.createElement (doc : Document) (name : String) (attributes : Attributes) : Document :=
  attributes.foldl (fun out entry => out.setAttribute doc.size entry.1 entry.2)
    (doc.create (.element name []))

namespace Building

open Markup

def start (doc : Document) : Building := ⟨doc.create .fragment, doc.size, []⟩

def container (building : Building) : NodeId :=
  (building.opened.head?.map Prod.fst).getD building.root

/-- Append the node that was created last. A fault leaves it where it is. -/
def append (building : Building) (created : Document) :
    Except (HierarchyFault × Document) Building :=
  match created.appendChild building.container building.doc.size with
  | .error fault => .error (fault, created)
  | .ok doc => .ok { building with doc }

def consume (building : Building) (placed : Placed) :
    Except (HierarchyFault × Document) (Building × List Event) :=
  match placed.token with
  | .text value =>
      match building.append (building.doc.create (.text value)) with
      | .error fault => .error fault
      | .ok next => .ok (next, [])
  | .comment value =>
      match building.append (building.doc.create (.comment value)) with
      | .error fault => .error fault
      | .ok next => .ok (next, [])
  | .startTag name attributes selfClosing =>
      match building.append (building.doc.createElement name attributes) with
      | .error fault => .error fault
      | .ok next =>
          if selfClosing || isVoid name then .ok (next, [])
          else .ok ({ next with opened := (building.doc.size, name) :: next.opened }, [])
  | .endTag name =>
      match building.opened.findIdx? fun entry => Text.sameLetters entry.2 name with
      | some depth =>
          .ok ({ building with opened := building.opened.drop (depth + 1) },
            if depth = 0 then [] else [.impliedEndTags name placed.offset depth])
      | none =>
          .ok (building, if isVoid name then [] else [.strayEndTag name placed.offset])

def consumeAll (building : Building) :
    List Placed → Except (HierarchyFault × Document) (Building × List Event)
  | [] => .ok (building, [])
  | placed :: rest =>
      match building.consume placed with
      | .error fault => .error fault
      | .ok (next, events) =>
          match next.consumeAll rest with
          | .error fault => .error fault
          | .ok (last, later) => .ok (last, events ++ later)

def finish (building : Building) : List Event :=
  (building.opened.getLast?.map fun entry => Event.openAtEnd entry.2).toList

end Building

/-- Read markup below a new fragment and give its top-level nodes; a fault comes with the document
as it was left. -/
def Document.build (doc : Document) (source : String) :
    Except (ParseFault × Document) (List NodeId × Document × List Event) :=
  match Markup.tokenize source with
  | .error error => .error (.malformed error, doc)
  | .ok tokens =>
      match (Building.start doc).consumeAll tokens with
      | .error (fault, left) => .error (.hierarchy fault, left)
      | .ok (building, events) =>
          .ok (building.doc.children doc.size, building.doc, events ++ building.finish)

end ViewTemplates
