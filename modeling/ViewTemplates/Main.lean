import ViewTemplates.Command.Run

/-!
The command `ngt`: reads the files that an invocation names, and prints what it makes of them.
-/

namespace ViewTemplates.Command

def readAll (paths : List String) : IO Files := do
  let mut known : List (String × String) := []
  for path in paths do
    try
      known := (path, ← IO.FS.readFile path) :: known
    catch _ => pure ()
  return fun path => known.lookup path

def Reason.text : Reason → String
  | .sentence text => text
  | .unreadable => "the file cannot be read"
  | .malformed => "the JSON does not describe directives"

def execute (arguments : List String) : IO UInt32 := do
  let invocation := Invocation.ofArguments arguments
  let named ← readAll (paths (fun _ => none) invocation)
  let files ← readAll (paths named invocation)
  let exit := run files invocation
  for event in exit.events do
    if event.level = .warn then IO.eprintln s!"[WARN] {event.message}"
  unless exit.reasons.isEmpty do
    IO.eprintln ("Error: " ++ ": ".intercalate (exit.reasons.map Reason.text))
  IO.print exit.output
  return exit.status.toUInt32

end ViewTemplates.Command

def main (arguments : List String) : IO UInt32 :=
  ViewTemplates.Command.execute arguments
