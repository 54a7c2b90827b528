import ClosedSwitch.CommandLine.Run

/-!
# The command line

Reads the files of a command and writes what the command yields.
-/

namespace ClosedSwitch.CommandLine

/-- The text of a file, or why there is none. -/
def readText (path : String) : IO (Except ReadError String) := do
  try
    let bytes ← IO.FS.readBinFile path
    return match String.fromUTF8? bytes with
      | some text => .ok text
      | none => .error .notText
  catch e =>
    return .error (match e with
      | .noFileOrDirectory .. => .missing
      | .inappropriateType .. => .directory
      | other => .other (toString other))

/-- The files that the arguments name, with their contents. -/
def readFiles (arguments : List String) : IO (List (String × Except ReadError String)) :=
  match Command.parse arguments with
  | .error _ => return []
  | .ok command => command.files.mapM fun path => do return (path, ← readText path)

end ClosedSwitch.CommandLine

open ClosedSwitch.CommandLine in
def main (arguments : List String) : IO UInt32 := do
  let contents ← readFiles arguments
  let outcome := run (fun path => (contents.lookup path).getD (.error .missing)) arguments
  (← IO.getStdout).putStr outcome.output
  (← IO.getStderr).putStr outcome.errors
  return outcome.status.toUInt32
