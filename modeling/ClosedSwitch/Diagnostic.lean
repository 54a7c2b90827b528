import ClosedSwitch.Span

/-!
# Diagnostics and suppressions

What a compiler reports, and the proof that a report is a false alarm.
-/

namespace ClosedSwitch

/-- A place in a file; files are numbered in the order of the snapshot, without a bound, and a
program of more than 2^32 files is not described. -/
structure Location where
  file : Nat
  span : Span
deriving DecidableEq, Repr

structure Diagnostic where
  id : String
  location : Location
  message : String := ""
deriving DecidableEq, Repr

/-- The identifier, followed by the message if there is one. -/
def Diagnostic.describe (d : Diagnostic) : String :=
  if d.message.isEmpty then d.id else s!"{d.id}: {d.message}"

/-- A kind of suppression: which diagnostics it silences, and why that is justified. -/
structure Descriptor where
  id : String
  suppressedId : String
  justification : String
deriving DecidableEq, Repr

def Descriptor.describe (d : Descriptor) : String :=
  s!"{d.id} suppresses {d.suppressedId}: {d.justification}"

/-- A diagnostic that is a false alarm, with the descriptor that says why. -/
structure Suppression where
  descriptor : Descriptor
  diagnostic : Diagnostic
deriving DecidableEq, Repr

end ClosedSwitch
