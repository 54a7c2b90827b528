/-!
# Configuration

Analyzer options outside of the snapshot: some for every file, and some for single files, which
take precedence.
-/

namespace ClosedSwitch

/-- Option keys with their texts. -/
abbrev Options := List (String × String)

structure Config where
  options : Options := []
  files : List (String × Options) := []
deriving DecidableEq, Repr

instance : Inhabited Config := ⟨{}⟩

/-- The text of an option for the file at `path`. -/
def Config.lookup (c : Config) (path key : String) : Option String :=
  ((c.files.lookup path).bind (·.lookup key)).or (c.options.lookup key)

end ClosedSwitch
