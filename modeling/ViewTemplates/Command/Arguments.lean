/-!
Command line arguments: one template, and options before, between and behind.
-/

namespace ViewTemplates.Command

inductive Invocation where
  | compile (template : String) (directives : Option String) (json : Bool)
  | version
  | help
  | invalid
  deriving Repr, DecidableEq

/-- One argument on its own. An option may have its value attached. -/
inductive Word where
  | escape
  | json
  | version
  | help
  | directives (attached : Option String)
  | unknown
  | plain (text : String)
  deriving Repr, DecidableEq

def Word.ofLong (name : List Char) : Word :=
  if name = "json".toList then .json
  else if name = "version".toList then .version
  else if name = "help".toList then .help
  else if name = "directives".toList then .directives none
  else if "directives=".toList.isPrefixOf name then
    .directives (some (String.ofList (name.drop "directives=".length)))
  else .unknown

/-- Options with one dash; the first one decides. -/
def Word.ofShort : List Char → Word
  | 'V' :: _ => .version
  | 'h' :: _ => .help
  | ['d'] => .directives none
  | 'd' :: '=' :: value => .directives (some (String.ofList value))
  | 'd' :: value => .directives (some (String.ofList value))
  | _ => .unknown

/-- A lone dash is no option. -/
def Word.ofArgument (argument : String) : Word :=
  match argument.toList with
  | ['-', '-'] => .escape
  | '-' :: '-' :: name => .ofLong name
  | ['-'] => .plain argument
  | '-' :: letters => .ofShort letters
  | _ => .plain argument

structure Given where
  template : Option String
  directives : Option String
  json : Bool
  deriving Repr, DecidableEq

namespace Given

def empty : Given := ⟨none, none, false⟩

def addTemplate? (given : Given) (template : String) : Option Given :=
  if given.template.isSome then none else some { given with template := some template }

def addDirectives? (given : Given) (directives : String) : Option Given :=
  if given.directives.isSome then none else some { given with directives := some directives }

def addJson? (given : Given) : Option Given :=
  if given.json then none else some { given with json := true }

def finish (given : Given) : Invocation :=
  match given.template with
  | some template => .compile template given.directives given.json
  | none => .invalid

/-- Arguments behind an escape are templates. -/
def readTemplates (given : Given) : List String → Invocation
  | [] => given.finish
  | argument :: rest =>
      match given.addTemplate? argument with
      | some next => next.readTemplates rest
      | none => .invalid

/-- Arguments from the left. Nothing may be given twice, and what is asked for first is done. -/
def read (given : Given) : List String → Invocation
  | [] => given.finish
  | argument :: rest =>
      match Word.ofArgument argument with
      | .escape => given.readTemplates rest
      | .version => .version
      | .help => .help
      | .unknown => .invalid
      | .json =>
          match given.addJson? with
          | some next => next.read rest
          | none => .invalid
      | .plain text =>
          match given.addTemplate? text with
          | some next => next.read rest
          | none => .invalid
      | .directives (some path) =>
          match given.addDirectives? path with
          | some next => next.read rest
          | none => .invalid
      | .directives none =>
          match rest with
          | [] => .invalid
          | value :: more =>
              match Word.ofArgument value with
              | .plain path =>
                  match given.addDirectives? path with
                  | some next => next.read more
                  | none => .invalid
              | _ => .invalid

end Given

def Invocation.ofArguments (arguments : List String) : Invocation := Given.empty.read arguments

end ViewTemplates.Command
