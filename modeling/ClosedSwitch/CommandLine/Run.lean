import ClosedSwitch.Batch
import ClosedSwitch.CommandLine.Command
import ClosedSwitch.Config.OfToml
import ClosedSwitch.Json.Printer
import ClosedSwitch.LineIndex
import ClosedSwitch.Program.Load
import ClosedSwitch.Report.Layout
import ClosedSwitch.Snapshot.OfJson

/-!
# Running commands

A command is run on the contents of its files and yields what is written and the exit status. It
writes as it goes, so what it has written stays when it fails.
-/

namespace ClosedSwitch.CommandLine

/-- Why a file has no text. -/
inductive ReadError where
  | missing
  | directory
  | notText
  | other (cause : String)
deriving DecidableEq, Repr

def ReadError.message : ReadError → String
  | .missing => "No such file or directory (os error 2)"
  | .directory => "Is a directory (os error 21)"
  | .notText => "stream did not contain valid UTF-8"
  | .other cause => cause

inductive CommandError where
  | unreadable (path : String) (cause : ReadError)
  | malformedSnapshot
  | malformedConfig
  | defect (cause : LoadError)
  | unknownType (name : String)
  | unknownFile (file : Nat)
  | stopped (cause : BatchError)
  /-- The line or the column of a suppression cannot be counted in 32 bits. -/
  | overflow
deriving DecidableEq, Repr

def CommandError.message : CommandError → String
  | .unreadable path cause => s!"failed to read {path}: " ++ cause.message
  | .malformedSnapshot => "failed to parse snapshot: not a snapshot"
  | .malformedConfig => "failed to parse analyzer config: not a configuration"
  | .defect cause => cause.message
  | .unknownType name => s!"unknown type `{name}`"
  | .unknownFile file => s!"diagnostic refers to unknown file #{file}"
  | .stopped cause => cause.message
  | .overflow => "arithmetic overflow"

/-- The exit status after an error. An overflow breaks the program off. -/
def CommandError.status : CommandError → Nat
  | .overflow => 101
  | _ => 1

/-- A computation that adds to what has been written, and may fail. -/
abbrev Writing := ExceptT CommandError (StateM String)

def write (text : String) : Writing Unit := modify (· ++ text)

/-- The text of each file. -/
abbrev Files := String → Except ReadError String

/-- The text of a file that a command needs. -/
def Files.text (files : Files) (path : String) : Except CommandError String :=
  match files path with
  | .ok text => .ok text
  | .error cause => .error (.unreadable path cause)

def Files.program (files : Files) (path : String) : Except CommandError Program := do
  let text ← files.text path
  match Snapshot.parse? text with
  | none => .error .malformedSnapshot
  | some snapshot =>
    match Program.load snapshot with
    | .error cause => .error (.defect cause)
    | .ok program => .ok program

def Files.config (files : Files) (path : String) : Except CommandError Config := do
  let text ← files.text path
  match Config.parse? text with
  | none => .error .malformedConfig
  | some config => .ok config

/-! ## Checking -/

/-- Where a suppression starts; an offset beyond the text counts as its end. -/
def startPosition? (text : String) (d : Diagnostic) : Option Position :=
  (LineIndex.ofText text).position? (min d.location.span.start (toOffset text.utf8ByteSize))

/-- A suppression as one line of JSON. -/
def jsonLine (file : SourceFile) (position : Position) (s : Suppression) : String :=
  (Json.ofFields [
    ("code", .ofText s.descriptor.id), ("suppressed", .ofText s.diagnostic.id),
    ("file", .ofText file.path), ("line", .ofNat position.line),
    ("column", .ofNat position.column), ("start", .ofNat s.diagnostic.location.span.start),
    ("end", .ofNat s.diagnostic.location.span.stop),
    ("justification", .ofText s.descriptor.justification)]).render ++ "\n"

/-- A suppression as a line of its own, with a report below it if the source is known. -/
def textLines (color : Bool) (file : SourceFile) (position : Position) (s : Suppression) :
    String :=
  s!"{file.path}:{position.line}:{position.column}: "
    ++ s!"{s.descriptor.id} suppressed {s.diagnostic.id}\n"
    ++ (match file.text with
      | none => ""
      | some text => Report.render s text color)

/-- How a suppression is shown. -/
def showSuppression (P : Program) (options : CheckOptions) (s : Suppression) :
    Except CommandError String :=
  match P.file? s.diagnostic.location.file with
  | none => .error (.unknownFile s.diagnostic.location.file)
  | some file =>
    match startPosition? (file.text.getD "") s.diagnostic with
    | none => .error .overflow
    | some position =>
      .ok (if options.json then jsonLine file position s
        else textLines options.color file position s)

def runCheck (files : Files) (snapshot : String) (options : CheckOptions) : Writing Unit := do
  let program ← files.program snapshot
  let config ← match options.config with
    | none => pure {}
    | some path => files.config path
  let program := program.withConfig config
  let suppressors := Suppressor.both options.allowRecords
  match reportSuppressions program suppressors program.diagnostics {} with
  | (.error cause, _) => throw (.stopped cause)
  | (.ok suppressions, _) =>
    for s in suppressions do
      write (← showSuppression program options s)
    unless options.json do
      let suppressed := suppressions.length
      let total := program.diagnostics.length
      write s!"{suppressed} of {total} diagnostic(s) suppressed\n"

/-! ## The other commands -/

def runClassify (files : Files) (snapshot root : String) (allowRecords : Bool) :
    Writing Unit := do
  let program ← files.program snapshot
  match program.types.find? root with
  | none => throw (.unknownType root)
  | some t =>
    match program.types.classify allowRecords t with
    | none => write s!"{root} is not closed\n"
    | some hierarchy =>
      write (String.join (hierarchy.leaves.map fun leaf => program.types.name leaf ++ "\n"))

def showDescriptor (json : Bool) (d : Descriptor) : String :=
  if json then
    (Json.ofFields [
      ("id", .ofText d.id), ("justification", .ofText d.justification),
      ("suppressed_diagnostic_id", .ofText d.suppressedId)]).render ++ "\n"
  else d.describe ++ "\n"

def Command.run (files : Files) : Command → Writing Unit
  | .check snapshot options => runCheck files snapshot options
  | .classify snapshot root allowRecords => runClassify files snapshot root allowRecords
  | .descriptors json => write (String.join (allDescriptors.map (showDescriptor json)))
  | .version => write "cthc 0.1.0\n"

/-! ## The whole program -/

/-- What a run leaves behind. -/
structure Outcome where
  status : Nat
  output : String := ""
  errors : String := ""
deriving DecidableEq, Repr

def usageText : String :=
  "Closed type hierarchy switch suppressor\n\n"
    ++ "Usage:\n"
    ++ "  cthc check <SNAPSHOT> [--config <CONFIG>] [--allow-record-hierarchies] [--json] "
    ++ "[--no-color]\n"
    ++ "  cthc classify <SNAPSHOT> <ROOT> [--allow-record-hierarchies]\n"
    ++ "  cthc descriptors [--json]\n"
    ++ "  cthc --version\n"

/-- How an error is shown. An overflow is not reported by the program itself, in either form. -/
def showError (json : Bool) (e : CommandError) : String :=
  if e = .overflow then e.message ++ "\n"
  else if json then
    (Json.ofFields [("message", .ofText e.message), ("severity", .ofText "error")]).render ++ "\n"
  else "error: " ++ e.message ++ "\n"

/-- The outcome of a command on its files. -/
def Command.outcome (files : Files) (c : Command) : Outcome :=
  match (c.run files).run "" with
  | (.ok (), output) => { status := 0, output }
  | (.error e, output) => { status := e.status, output, errors := showError c.jsonErrors e }

/-- The outcome of arguments that ask for no command. -/
def Refusal.outcome : Refusal → Outcome
  | .help => { status := 0, output := usageText }
  | .usage => { status := 2, errors := usageText }

/-- Runs the program on its arguments, with the contents of all files. -/
def run (files : Files) (arguments : List String) : Outcome :=
  match Command.parse arguments with
  | .ok command => command.outcome files
  | .error refusal => refusal.outcome

end ClosedSwitch.CommandLine
