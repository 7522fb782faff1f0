import ValueChannels.Demo.CommandLine

/-!
The program: it reads its arguments and, where one is named, the configuration, and shows
the report of the demonstration.
-/

namespace ValueChannels

def Event.fieldText {α : Type} (render : α → String) : Option α → String
  | some value => render value
  | none => "null"

/-- An event as a line of JSON. No time passes in a run, so every operation takes none. -/
def Event.jsonLine (event : Event) : String :=
  let named (text : String) : String := "\"" ++ text ++ "\""
  "\x7b\"op\":" ++ named event.operation.name
    ++ ",\"handle\":" ++ fieldText toString event.handle
    ++ ",\"key\":" ++ fieldText toString event.key
    ++ ",\"transferable\":" ++ fieldText named event.form
    ++ ",\"duration_us\":0,\"ok\":" ++ Text.inspectBool event.ok ++ "\x7d"

end ValueChannels

open ValueChannels in
/-- What is found under a path. Only a file that cannot be opened counts as missing; one that is
open may still turn out to be a directory or no text. -/
def readConfigFile (path : String) : IO Demo.ConfigFile := do
  match ← (IO.FS.Handle.mk path .read).toBaseIO with
  | .error _ => pure .missing
  | .ok file =>
      match ← file.readToEnd.toBaseIO with
      | .ok text => pure (.content text)
      | .error _ => pure .unreadable

open ValueChannels in
def main (arguments : List String) : IO UInt32 := do
  let invocation := Demo.Invocation.ofArguments arguments
  let file ← match invocation with
    | .run { config := some path, .. } => readConfigFile path
    | _ => pure .missing
  let report := invocation.report fun _ => file
  if invocation == .misuse then
    IO.eprintln Demo.usageLine
  for line in report.lines do
    IO.println line
  for event in report.events do
    IO.println event.jsonLine
  match report.error with
  | some message => IO.eprintln ("Error: " ++ message)
  | none => pure ()
  pure (UInt32.ofNat report.status)
