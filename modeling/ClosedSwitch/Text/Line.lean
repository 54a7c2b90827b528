/-!
# Lines of a text

Two ways to cut a text. For display, every Unicode line separator ends a line and stays with it. In
a message, a newline ends a line and goes, with a carriage return in front of it.
-/

namespace ClosedSwitch.Text

/-- Whether a character ends a line on display. -/
def isSeparator (c : Char) : Bool :=
  c == '\r' || c == '\n' || c == '\x0b' || c == '\x0c' || c == '\u0085' || c == '\u2028'
    || c == '\u2029'

/-- Cuts after every separator, where a carriage return and a newline are one. The characters of
the line so far are in reverse. -/
def cutAfterSeparators (line : List Char) : List Char → List (List Char)
  | [] => if line.isEmpty then [] else [line.reverse]
  | '\r' :: '\n' :: rest => ('\n' :: '\r' :: line).reverse :: cutAfterSeparators [] rest
  | c :: rest =>
    if isSeparator c then (c :: line).reverse :: cutAfterSeparators [] rest
    else cutAfterSeparators (c :: line) rest

/-- The lines on display, at least one. -/
def displayLines (cs : List Char) : List (List Char) :=
  match cutAfterSeparators [] cs with
  | [] => [[]]
  | lines => lines

/-- Cuts at every newline; a last line that is empty is left out. -/
def cutAtNewlines (line : List Char) : List Char → List (List Char)
  | [] => if line.isEmpty then [] else [line.reverse]
  | '\r' :: '\n' :: rest => line.reverse :: cutAtNewlines [] rest
  | '\n' :: rest => line.reverse :: cutAtNewlines [] rest
  | c :: rest => cutAtNewlines (c :: line) rest

/-- The lines of a message. -/
def messageLines (text : String) : List String :=
  (cutAtNewlines [] text.toList).map String.ofList

end ClosedSwitch.Text
