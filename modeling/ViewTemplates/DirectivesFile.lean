import ViewTemplates.Directive.Registry
import ViewTemplates.Json.Reader
import ViewTemplates.Path

/-!
Directives files: a JSON record with a compiler configuration and a list of directives, which is
registered entry by entry. The markup of a component stands in its entry or in a file beside.
-/

namespace ViewTemplates

/-- The contents of the files that can be read. -/
abbrev Files := String → Option String

inductive EntryKind where
  | decorator
  | template
  | component
  deriving Repr, DecidableEq

def EntryKind.label : EntryKind → String
  | decorator => "decorator"
  | template => "template"
  | component => "component"

structure Entry where
  name : String
  selector : String
  kind : EntryKind
  template : Option String
  templateUrl : Option String
  deriving Repr, DecidableEq

structure DirectivesFile where
  config : Config
  entries : List Entry
  deriving Repr, DecidableEq

/-! Reading. -/

namespace EntryKind

def ofLabel? (label : String) : Option EntryKind :=
  [decorator, template, component].find? fun kind => kind.label == label

/-- A kind by its name, or as the only member of an object, with nothing to it. -/
def ofJson? : Json (Option String) → Option EntryKind
  | .text (some label) => ofLabel? label
  | .object [(some label, .null)] => ofLabel? label
  | _ => none

end EntryKind

namespace Entry

def nullable? : Json (Option String) → Option (Option String)
  | .null => some none
  | json => json.string?.map some

/-- An entry; as an object it may leave out the template and its file, as an array nothing. -/
def ofJson? (json : Json (Option String)) : Option Entry := do
  match ← Json.fields? ["name", "selector", "kind", "template", "templateUrl"] json, json with
  | [_, _, _, _, none], .array _ => none
  | [some name, some selector, some kind, template, templateUrl], _ =>
      pure ⟨← name.string?, ← selector.string?, ← EntryKind.ofJson? kind,
        ← Json.optional nullable? none template, ← Json.optional nullable? none templateUrl⟩
  | _, _ => none

end Entry

namespace DirectivesFile

def entries? : Json (Option String) → Option (List Entry)
  | .array items => items.mapM Entry.ofJson?
  | _ => none

def ofJson? (json : Json (Option String)) : Option DirectivesFile := do
  match ← Json.fields? ["compiler", "directives"] json with
  | [compiler, directives] =>
      pure ⟨← Json.optional Config.ofJson? .default compiler,
        ← Json.optional entries? [] directives⟩
  | _ => none

def parse (content : String) : Option DirectivesFile := do
  ofJson? (← Json.parse content)

end DirectivesFile

/-! Registration. -/

inductive RegistrationError where
  | config (fault : ConfigFault)
  | strayTemplate (name : String)
  | templateChoice (name : String)
  | unreadable (name path : String)
  | directive (name : String) (error : Error)
  deriving Repr, DecidableEq

namespace Entry

/-- The markup of a component, by the entry's two ways to give it. -/
def markup (entry : Entry) (files : Files) (directory : String) :
    Except RegistrationError String :=
  match entry.template, entry.templateUrl with
  | some markup, none => .ok markup
  | none, some url =>
      let path := Path.join directory url
      match files path with
      | some markup => .ok markup
      | none => .error (.unreadable entry.name path)
  | _, _ => .error (.templateChoice entry.name)

/-- The directive of an entry; only components have a template. -/
def directive (entry : Entry) (files : Files) (directory : String) :
    Except RegistrationError Directive :=
  match entry.kind with
  | .component =>
      match entry.markup files directory with
      | .error error => .error error
      | .ok markup => .ok ⟨entry.name, entry.selector, .component (.inline markup)⟩
  | .decorator =>
      if entry.template.isSome || entry.templateUrl.isSome then .error (.strayTemplate entry.name)
      else .ok ⟨entry.name, entry.selector, .decorator⟩
  | .template =>
      if entry.template.isSome || entry.templateUrl.isSome then .error (.strayTemplate entry.name)
      else .ok ⟨entry.name, entry.selector, .template⟩

def registerAll (files : Files) (directory : String) (registry : Registry) :
    List Entry → Except RegistrationError Registry
  | [] => .ok registry
  | entry :: rest =>
      match entry.directive files directory with
      | .error error => .error error
      | .ok directive =>
          match registry.register directive with
          | .error error => .error (.directive entry.name error)
          | .ok (next, _) => registerAll files directory next rest

end Entry

namespace DirectivesFile

def registry (file : DirectivesFile) (files : Files) (directory : String) :
    Except RegistrationError Registry :=
  match file.config.validate with
  | .error fault => .error (.config fault)
  | .ok () => Entry.registerAll files directory .empty file.entries

def paths (file : DirectivesFile) (directory : String) : List String :=
  file.entries.filterMap fun entry => entry.templateUrl.map (Path.join directory)

end DirectivesFile

end ViewTemplates
