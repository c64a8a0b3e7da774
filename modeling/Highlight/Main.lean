import Highlight.Command

/-! The program: it reads what its command needs, and writes the outcome. -/

namespace Highlight

/-- The text of a file, if it can be read. -/
def readText (path : String) : IO (Option String) :=
  try
    return some (← IO.FS.readFile path)
  catch _ =>
    return none

/-- The standard input up to its end, if it can be read. -/
def readInput : IO (Option String) :=
  try
    return some (← (← IO.getStdin).readToEnd)
  catch _ =>
    return none

/-- What a command needs to read. -/
def surroundingsOf (command : Command) : IO Surroundings := do
  let files ← command.paths.mapM fun path => return (path, ← readText path)
  let input ← if command.readsInput then readInput else pure none
  return { file? := fun path => (getValue? path files).bind id, input }

/-- Writes the outcome of a command, or waits for ever if it has none. -/
def report (outcome? : Option Outcome) : IO UInt32 := do
  if let some outcome := outcome? then
    IO.print outcome.output
    if let some line := outcome.error then IO.eprintln line
    return outcome.code.toUInt32
  repeat IO.sleep 1000
  return 0

end Highlight

open Highlight in
def main (arguments : List String) : IO UInt32 := do
  match Command.ofArguments? arguments with
  | some command => report (command.run (← surroundingsOf command))
  | none => report (some Command.wrongUsage)
