import ClosedSwitch.Span

/-!
# Defects of a snapshot

Why a snapshot that can be read does not describe a program.
-/

namespace ClosedSwitch

inductive LoadError where
  | duplicateType (name : String)
  | unknownType (name referencedBy : String)
  | cyclicBase (name : String)
  | invertedSpan (file : String) (span : Span)
  | unknownFile (path : String)
deriving DecidableEq, Repr

def LoadError.message : LoadError → String
  | .duplicateType name => s!"type `{name}` is declared more than once"
  | .unknownType name referencedBy => s!"unknown type `{name}` referenced by `{referencedBy}`"
  | .cyclicBase name => s!"base type chain of `{name}` is cyclic"
  | .invertedSpan file ⟨start, stop⟩ =>
    s!"span {start}..{stop} in `{file}` ends before it starts"
  | .unknownFile path => s!"diagnostic refers to unknown file `{path}`"

end ClosedSwitch
