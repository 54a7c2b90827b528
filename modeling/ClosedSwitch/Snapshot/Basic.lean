import ClosedSwitch.Diagnostic
import ClosedSwitch.Nullability
import ClosedSwitch.Pattern
import ClosedSwitch.TypeTable.Members

/-!
# Snapshots

A snapshot is what a compiler exports about a program: its named types, the switches of each file,
and the diagnostics that were reported. Types are referred to by qualified name.
-/

namespace ClosedSwitch

/-- A type declaration with its simple name, and the declarations nested in it. -/
structure TypeDecl where
  shape : TypeShape String
  nested : List TypeDecl := []

/-- The expression that a switch is applied to. -/
structure Governing where
  span : Span := default
  type : Option String := none
  nullability : Nullability := {}
  symbol : Option ValueSymbol := none

/-- A switch as it is declared. -/
inductive SwitchDecl where
  | expression (span : Span) (governing : Governing) (arms : List DeclaredCase)
  | statement (span : Span) (governing : Governing) (sections : List (List DeclaredLabel))

structure FileDecl where
  path : String
  text : Option String := none
  /-- Keys and texts; of several entries with one key the first counts. -/
  options : List (String × String) := []
  switches : List SwitchDecl := []

/-- A diagnostic that names its file by path. -/
structure DiagnosticDecl where
  id : String
  file : String
  span : Span
  message : String := ""

structure Snapshot where
  types : List TypeDecl := []
  extensions : List (Extension String) := []
  files : List FileDecl := []
  diagnostics : List DiagnosticDecl := []

end ClosedSwitch
