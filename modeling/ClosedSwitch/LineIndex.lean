import ClosedSwitch.Span

/-!
# Lines and columns

Positions of byte offsets in a text. Only a newline byte ends a line, lines and columns count from
one, and an offset past the end of the text is on its last line. Offsets, lines and columns are 32
bits wide.
-/

namespace ClosedSwitch

/-- The low 32 bits of a number. -/
def toOffset (n : Nat) : Nat := n % (maxOffset + 1)

/-- The number after `n`, or nothing after the largest one. -/
def next? (n : Nat) : Option Nat := if n < maxOffset then some (n + 1) else none

/-- A line and a column, both counted from one. -/
structure Position where
  line : Nat
  column : Nat
deriving DecidableEq, Repr

/-- The offsets at which the lines of a text start, in increasing order. -/
structure LineIndex where
  starts : Array Nat
deriving DecidableEq, Repr

namespace LineIndex

/-- The offsets just after the newline bytes, where the first byte is at `offset`. -/
def startsFrom (offset : Nat) : List UInt8 → List Nat
  | [] => []
  | byte :: rest =>
    if byte = 10 then toOffset (offset + 1) :: startsFrom (offset + 1) rest
    else startsFrom (offset + 1) rest

def ofBytes (bytes : List UInt8) : LineIndex := ⟨(0 :: startsFrom 0 bytes).toArray⟩

def ofText (text : String) : LineIndex := ofBytes text.toUTF8.data.toList

def lineCount (index : LineIndex) : Nat := index.starts.size

/-- The first line from `low` on and before `high` that starts after an offset, or else `high`.
Half of the lines between the two are ruled out at a time. -/
def firstAfter (index : LineIndex) (offset low high : Nat) : Nat :=
  if low < high then
    let middle := (low + high) / 2
    if index.starts.getD middle 0 ≤ offset then index.firstAfter offset (middle + 1) high
    else index.firstAfter offset low middle
  else low
termination_by high - low

/-- The number of lines that start at or before an offset. -/
def linesUpTo (index : LineIndex) (offset : Nat) : Nat :=
  index.firstAfter offset 0 index.lineCount

/-- The position of an offset; nothing when a line or a column exceeds the largest offset. -/
def position? (index : LineIndex) (offset : Nat) : Option Position := do
  let last := index.linesUpTo offset - 1
  let line ← next? (toOffset last)
  let start ← index.starts[last]?
  let before ← Span.length? ⟨start, offset⟩
  let column ← next? before
  return ⟨line, column⟩

end LineIndex

end ClosedSwitch
