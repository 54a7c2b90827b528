/-!
# Spans

Half-open ranges of byte offsets. A span read from outside may end before it starts; `IsOrdered`
says that it does not, and the length is only meaningful then.
-/

namespace ClosedSwitch

/-- The largest offset: offsets are 32 bits wide. -/
def maxOffset : Nat := 4294967295

/-- The bytes from `start` up to, and without, `stop`. -/
structure Span where
  start : Nat
  stop : Nat
deriving DecidableEq, Repr

namespace Span

instance : Inhabited Span := ⟨⟨0, 0⟩⟩

/-- A span that does not end before it starts. -/
def IsOrdered (s : Span) : Prop := s.start ≤ s.stop

instance (s : Span) : Decidable s.IsOrdered := inferInstanceAs (Decidable (s.start ≤ s.stop))

/-- The number of bytes of an ordered span. -/
def length (s : Span) : Nat := s.stop - s.start

/-- The number of bytes, or nothing for a span that ends before it starts. -/
def length? (s : Span) : Option Nat := if s.IsOrdered then some s.length else none

def isEmpty (s : Span) : Bool := s.start == s.stop

/-- Whether `other` lies within `s`, for spans in any order of their ends. -/
def contains (s other : Span) : Bool := decide (s.start ≤ other.start ∧ other.stop ≤ s.stop)

/-- The complaint about bounds that do not make an ordered span. -/
def disorderMessage (start stop : Nat) : String :=
  s!"span start ({start}) must be <= end ({stop})"

/-- An ordered span with the given bounds. -/
def ofBounds (start stop : Nat) : Except String Span :=
  if start ≤ stop then .ok ⟨start, stop⟩ else .error (disorderMessage start stop)

theorem length?_of_isOrdered {s : Span} (h : s.IsOrdered) : s.length? = some s.length := by
  simp [length?, h]

theorem contains_iff {s other : Span} :
    s.contains other = true ↔ s.start ≤ other.start ∧ other.stop ≤ s.stop := by
  simp [contains]

end Span

end ClosedSwitch
