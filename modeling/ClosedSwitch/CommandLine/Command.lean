import ClosedSwitch.CommandLine.Arguments

/-!
# Commands

What can be asked for on the command line.
-/

namespace ClosedSwitch.CommandLine

/-- How a check is made and shown. -/
structure CheckOptions where
  config : Option String := none
  allowRecords : Bool := false
  json : Bool := false
  color : Bool := true
deriving DecidableEq, Repr

inductive Command where
  | check (snapshot : String) (options : CheckOptions)
  | classify (snapshot root : String) (allowRecords : Bool)
  | descriptors (json : Bool)
  | version
deriving DecidableEq, Repr

/-- The flag that lets abstract records be roots. -/
def recordsFlag : String := "allow-record-hierarchies"

namespace Command

def parseCheck (arguments : List String) : Except Refusal Command := do
  let spec : Spec :=
    { flags := [recordsFlag, "json", "no-color"], options := [("config", .path)],
      positionals := [.path] }
  let a ← readArguments spec false {} arguments
  match a.positionals with
  | [snapshot] =>
    let json := a.hasFlag "json"
    return .check snapshot
      { config := a.option? "config", allowRecords := a.hasFlag recordsFlag, json,
        color := !a.hasFlag "no-color" && !json }
  | _ => .error .usage

def parseClassify (arguments : List String) : Except Refusal Command := do
  let a ← readArguments { flags := [recordsFlag], positionals := [.path, .text] } false {} arguments
  match a.positionals with
  | [snapshot, root] => return .classify snapshot root (a.hasFlag recordsFlag)
  | _ => .error .usage

def parseDescriptors (arguments : List String) : Except Refusal Command := do
  let a ← readArguments { flags := ["json"] } false {} arguments
  return .descriptors (a.hasFlag "json")

/-- Help is on the whole program or on one command. -/
def parseHelp : List String → Refusal
  | [] => .help
  | [command] =>
    if ["check", "classify", "descriptors", "help"].contains command then .help else .usage
  | _ => .usage

/-- The command that the arguments ask for. -/
def parse : List String → Except Refusal Command
  | [] => .error .usage
  | first :: rest =>
    match first with
    | "check" => parseCheck rest
    | "classify" => parseClassify rest
    | "descriptors" => parseDescriptors rest
    | "help" => .error (parseHelp rest)
    | _ =>
      match shapeOf first with
      | .long "version" none => .ok .version
      | .long "help" none => .error .help
      | .short ('V' :: _) => .ok .version
      | .short ('h' :: _) => .error .help
      | _ => .error .usage

/-- The files that a command reads, in order. -/
def files : Command → List String
  | .check snapshot options => snapshot :: options.config.toList
  | .classify snapshot _ _ => [snapshot]
  | .descriptors _ => []
  | .version => []

/-- Whether errors are shown as JSON. -/
def jsonErrors : Command → Bool
  | .check _ options => options.json
  | .classify _ _ _ => false
  | .descriptors json => json
  | .version => false

end Command

end ClosedSwitch.CommandLine
