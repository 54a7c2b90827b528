import ClosedSwitch.Diagnostic
import ClosedSwitch.Report.Excerpt

/-!
# Reports

A suppression drawn under the lines that it points at: a heading, the place, the lines with a mark
and the justification beside it, and the message of the diagnostic as a note.
-/

namespace ClosedSwitch.Report

/-! ## Colours -/

inductive Style where
  | heading
  | margin
  | shadedMargin
  | source
  | note
  | mark
deriving DecidableEq, Repr

/-- The terminal code of a style. -/
def Style.code : Style → String
  | .heading => "38;5;147"
  | .margin => "38;5;246"
  | .shadedMargin => "38;5;240"
  | .source => "38;5;249"
  | .note => "38;5;115"
  | .mark => "32"

/-- Text in a style, or plain text without colour. -/
def paint (color : Bool) (style : Style) (text : String) : String :=
  if color then "\x1b[" ++ style.code ++ "m" ++ text ++ "\x1b[0m" else text

/-- A number of copies of a text. -/
def copies (n : Nat) (text : String) : String := String.join (List.replicate n text)

def spaces (n : Nat) : String := copies n " "

/-! ## Drawing -/

/-- What a drawing depends on; `width` is the width of line numbers. -/
structure Canvas where
  color : Bool
  width : Nat
  excerpt : Excerpt
  label : String

namespace Canvas

def paint (c : Canvas) (style : Style) (text : String) : String := Report.paint c.color style text

/-- Text in the style of the mark. -/
def mark (c : Canvas) (text : String) : String := c.paint .mark text

/-- The margin of a line that is shown. -/
def numberedMargin (c : Canvas) (index : Nat) : String :=
  let number := toString (index + 1)
  " " ++ c.paint .margin (spaces (c.width - number.length) ++ number ++ " │") ++ " "

/-- The margin of a line that shows none of the source. -/
def emptyMargin (c : Canvas) (bar : String) : String :=
  " " ++ c.paint .shadedMargin (spaces (c.width + 1) ++ bar) ++ " "

def blank (c : Canvas) : String := c.emptyMargin "│"

def gap (c : Canvas) : String := c.emptyMargin "┆"

/-- The text of a line, where blanks are drawn one by one. -/
def sourceText (c : Canvas) (l : Line) : String :=
  String.join (l.body.zipIdx.map fun (shown, column) =>
    let style := if c.excerpt.marks (l.offset + column) then .mark else .source
    if Text.isBlank shown then copies (columnWidth column shown) (c.paint style " ")
    else c.paint style shown.toString)

/-- The column in the middle of the range. -/
def middle (c : Canvas) (l : Line) : Nat :=
  max ((c.excerpt.start + c.excerpt.stop) / 2) c.excerpt.start - l.offset

/-- What is drawn in a column right below the only line. -/
def underline (c : Canvas) (l : Line) (column width : Nat) : String :=
  let inside := c.excerpt.marks (l.offset + column)
  if column = c.middle l then
    if inside then c.mark "┬" ++ copies (width - 1) (c.mark "─")
    else c.mark "│" ++ copies (width - 1) (c.mark " ")
  else if inside then copies width (c.mark "─")
  else spaces width

/-- What is drawn in a column in front of the label. -/
def leader (c : Canvas) (l : Line) (column width : Nat) : String :=
  if column < c.middle l then spaces width
  else if column = c.middle l then c.mark "╰" ++ copies (width - 1) (c.mark "─")
  else copies width (c.mark "─")

/-- Draws the columns under the only line: up to two after the range. -/
def drawColumns (c : Canvas) (l : Line) (draw : Nat → Nat → String) : String :=
  String.join ((l.columns (c.excerpt.stop - l.offset + 2)).map fun (shown, column) =>
    draw column (columnWidth column shown))

/-- A range within one line. -/
def singleLine (c : Canvas) (index : Nat) (l : Line) : String :=
  if l.offset + l.length < c.excerpt.stop then c.blank ++ "\n"
  else
    c.numberedMargin index ++ c.sourceText l ++ "\n"
      ++ c.blank ++ c.drawColumns l (c.underline l) ++ "\n"
      ++ c.blank ++ c.drawColumns l (c.leader l) ++ " " ++ c.label ++ "\n"

/-- Whether a line holds the last character of the range. -/
def endsOn (c : Canvas) (l : Line) : Bool :=
  l.offset ≤ c.excerpt.stop - 1 && c.excerpt.stop - 1 < l.offset + l.length

/-- The last line of a range of several lines, with the label below it. -/
def lastLine (c : Canvas) (index : Nat) (l : Line) : String :=
  let width := l.widthOfFirst (l.length + 2)
  c.numberedMargin index ++ c.mark "├" ++ c.mark "─" ++ c.mark "▶" ++ c.mark " "
    ++ c.sourceText l ++ "\n"
    ++ c.blank ++ c.mark "│" ++ spaces 3 ++ spaces width ++ "\n"
    ++ c.blank ++ c.mark "╰" ++ copies 3 (c.mark "─") ++ copies width (c.mark "─")
    ++ " " ++ c.label ++ "\n"

/-- The lines after the first of several; the first of those between is drawn as a gap. -/
def followingLines (c : Canvas) (gapDrawn : Bool) : List (Nat × Line) → String
  | [] => ""
  | (index, l) :: rest =>
    if c.endsOn l then c.lastLine index l ++ c.followingLines gapDrawn rest
    else if gapDrawn then c.followingLines true rest
    else c.gap ++ c.mark "┆" ++ spaces 3 ++ "\n" ++ c.followingLines true rest

/-- A range over several lines, which are given with their numbers. -/
def severalLines (c : Canvas) : List (Nat × Line) → String
  | [] => ""
  | (index, l) :: rest =>
    c.numberedMargin index ++ c.mark "╭" ++ c.mark "─" ++ c.mark "▶" ++ c.mark " "
      ++ c.sourceText l ++ "\n" ++ c.followingLines false rest

/-- The margin of a note. Under several lines it leaves room for their mark, which is drawn when the
range starts as many characters into the text as its first line has. -/
def noteMargin (c : Canvas) (several : Bool) : String :=
  if !several then c.blank
  else if (c.excerpt.lines[0]?).any (·.length == c.excerpt.start) then
    c.blank ++ c.mark "│" ++ spaces 3
  else c.blank ++ spaces 4

/-- A note of one line or more. -/
def note (c : Canvas) (several : Bool) (text : String) : String :=
  let margin := c.noteMargin several
  match Text.messageLines text with
  | [] => margin ++ "\n"
  | first :: rest =>
    margin ++ "\n" ++ margin ++ c.paint .note "Note" ++ ": " ++ first ++ "\n"
      ++ String.join (rest.map fun line => margin ++ spaces 6 ++ line ++ "\n")

/-- The place that a report points at. -/
def place (c : Canvas) (index : Nat) (l : Line) : String :=
  let line := index + 1
  let column := c.excerpt.start - l.offset + 1
  spaces (c.width + 2) ++ c.paint .margin "╭" ++ c.paint .margin "─" ++ c.paint .margin "["
    ++ s!" <unknown>:{line}:{column} " ++ c.paint .margin "]" ++ "\n"
    ++ spaces (c.width + 2) ++ c.paint .margin "│" ++ "\n"

def closing (c : Canvas) : String :=
  c.paint .margin (copies (c.width + 2) "─" ++ "╯") ++ "\n"

end Canvas

/-- The lines of an excerpt from `first` to `last` with their numbers. -/
def Excerpt.between (x : Excerpt) (first last : Nat) : List (Nat × Line) :=
  (List.range' first (last + 1 - first)).filterMap fun index =>
    (x.lines[index]?).map (index, ·)

/-- A suppression drawn in the text of its file. Only the heading is left when the range, counted
in bytes, starts or ends beyond the characters of the text. -/
def render (s : Suppression) (text : String) (color : Bool) : String :=
  let excerpt := Excerpt.of text s.diagnostic.location.span
  let heading :=
    paint color .heading s!"[{s.descriptor.id}] Advice:" ++ s!" suppressed {s.diagnostic.id}\n"
  match excerpt.bounds? with
  | none => heading
  | some (first, last) =>
    let canvas : Canvas :=
      { color, width := (toString (last + 1)).length, excerpt, label := s.descriptor.justification }
    match excerpt.between first last with
    | [] => heading
    | (index, line) :: rest =>
      let several := !rest.isEmpty
      heading ++ canvas.place index line
        ++ (if several then canvas.severalLines ((index, line) :: rest)
          else canvas.singleLine index line)
        ++ (if s.diagnostic.message.isEmpty then ""
          else canvas.note several s.diagnostic.describe)
        ++ canvas.closing

end ClosedSwitch.Report
