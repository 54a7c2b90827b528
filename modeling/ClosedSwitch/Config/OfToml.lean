import ClosedSwitch.Config.Basic
import ClosedSwitch.Toml.Document

/-!
# Configuration in TOML

A configuration has a table `options` and, in the table `files`, a table for each path. The value of
an option is a text or a truth value, which counts as the text that spells it. Any other key of the
document is ignored.
-/

namespace ClosedSwitch

namespace Config

/-- The text of an option. -/
def optionText? : Toml.Value → Option String
  | .text text => some text
  | .boolean true => some "true"
  | .boolean false => some "false"
  | _ => none

/-- The key under which a date counts as a table. -/
def dateKey : String := "$__toml_private_datetime"

/-- The entries of a table, however it was written. A date counts as a table with one entry. -/
def entries? : Toml.Value → Option Toml.Entries
  | .table _ entries => some entries
  | .inlineTable _ entries => some entries
  | .dateTime value => some [(dateKey, .text value.render)]
  | _ => none

def options? (value : Toml.Value) : Option Options := do
  (← entries? value).mapM fun (key, value) => do return (key, ← optionText? value)

def files? (value : Toml.Value) : Option (List (String × Options)) := do
  (← entries? value).mapM fun (path, value) => do return (path, ← options? value)

/-- The entry under a key, empty if the key is not there. -/
def section? {α : Type} (document : Toml.Entries) (key : String)
    (read? : Toml.Value → Option (List α)) : Option (List α) :=
  match document.get? key with
  | none => some []
  | some value => read? value

def ofEntries? (document : Toml.Entries) : Option Config := do
  return {
    options := ← section? document "options" options?
    files := ← section? document "files" files? }

/-- A configuration from the text of a file. -/
def parse? (text : String) : Option Config := (Toml.parse? text).bind ofEntries?

end Config

end ClosedSwitch
