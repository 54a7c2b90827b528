import ClosedSwitch.Program.Basic
import ClosedSwitch.Text.Blank

/-!
# Options of a file

An option is looked up in the snapshot first and then in the configuration.
-/

namespace ClosedSwitch

/-- The option that lets abstract records be roots of closed hierarchies. -/
def recordHierarchiesKey : String :=
  "dotnet_diagnostic.CTH001.suppress_on_record_hierarchies"

/-- Whether a text spells true, in any case and with blanks around it. -/
def spellsTrue (text : String) : Bool :=
  (Text.trim text.toList).map Char.toLower = ['t', 'r', 'u', 'e']

namespace Program

def option? (P : Program) (file : Nat) (key : String) : Option String :=
  (P.file? file).bind fun f => (f.options.lookup key).or (P.config.lookup f.path key)

/-- Whether abstract records may be roots in a file. A text that spells neither true nor false
counts as false. -/
def recordHierarchiesAllowed (P : Program) (file : Nat) : Bool :=
  (P.option? file recordHierarchiesKey).any spellsTrue

end Program

end ClosedSwitch
