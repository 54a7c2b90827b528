import ClosedSwitch.Span
import ClosedSwitch.Text.Blank
import ClosedSwitch.Text.Line

/-!
# Excerpts

The part of a text that a report shows: its lines, and the range that is pointed at. A range is
clamped to the bytes of the text and covers one character at least, if there is one; from then on
its bounds count characters.
-/

namespace ClosedSwitch.Report

/-- The width of a character in a column: a tab reaches to the next multiple of four. -/
def columnWidth (column : Nat) (shown : Char) : Nat :=
  if shown = '\t' then (column / 4 + 1) * 4 - column else 1

/-- A line with the number of characters in front of it. -/
structure Line where
  offset : Nat
  chars : List Char

namespace Line

def length (l : Line) : Nat := l.chars.length

/-- What is shown of a line. -/
def body (l : Line) : List Char := Text.trimRight l.chars

/-- The first columns of a line with what is shown in them, a space beyond its end. -/
def columns (l : Line) (count : Nat) : List (Char × Nat) :=
  ((l.body ++ List.replicate count ' ').take count).zipIdx

/-- The width of the first columns together. -/
def widthOfFirst (l : Line) (count : Nat) : Nat :=
  (l.columns count).foldl (fun width (shown, column) => width + columnWidth column shown) 0

end Line

/-- Lines with their offsets, the first of which is `offset`. -/
def placeLines (offset : Nat) : List (List Char) → List Line
  | [] => []
  | chars :: rest => ⟨offset, chars⟩ :: placeLines (offset + chars.length) rest

structure Excerpt where
  lines : Array Line
  /-- The number of characters of the text. -/
  size : Nat
  start : Nat
  stop : Nat

/-- The range that a span points at in a text of `bytes` bytes. -/
def clamp (span : Span) (bytes : Nat) : Nat × Nat :=
  let start := min span.start bytes
  let stop := max (min span.stop bytes) start
  if start = stop then (start, min (stop + 1) bytes) else (start, stop)

def Excerpt.of (text : String) (span : Span) : Excerpt :=
  let chars := text.toList
  let (start, stop) := clamp span text.utf8ByteSize
  { lines := (placeLines 0 (Text.displayLines chars)).toArray, size := chars.length, start, stop }

namespace Excerpt

/-- Whether a character is pointed at. -/
def marks (x : Excerpt) (offset : Nat) : Bool := x.start ≤ offset && offset < x.stop

/-- The number of the line that an offset is on, nothing beyond the text. -/
def lineOf? (x : Excerpt) (offset : Nat) : Option Nat :=
  if x.size < offset then none
  else some ((x.lines.toList.filter fun l => l.offset ≤ offset).length - 1)

/-- The first and the last line of the range. -/
def bounds? (x : Excerpt) : Option (Nat × Nat) := do
  let first ← x.lineOf? x.start
  let last ← if x.stop ≤ x.start then some first else x.lineOf? (x.stop - 1)
  return (first, last)

end Excerpt

end ClosedSwitch.Report
