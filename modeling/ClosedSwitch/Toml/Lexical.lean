import ClosedSwitch.Json.Reader

/-!
# Blanks, comments, strings and keys of TOML

Readers over the remaining characters. Control characters, the tab apart, stand nowhere, and a
carriage return only in front of a newline.
-/

namespace ClosedSwitch.Toml

/-! ## Character classes -/

def isBlank (c : Char) : Bool := c == ' ' || c == '\t'

/-- Any character but a control character; the tab is allowed. -/
def isPrintable (c : Char) : Bool := c == '\t' || (0x20 ≤ c.toNat && c.toNat ≠ 0x7F)

/-- A character that stands for itself between double quotes. -/
def isBasic (c : Char) : Bool := isPrintable c && c ≠ '"' && c ≠ '\\'

/-- A character that stands for itself between single quotes. -/
def isLiteral (c : Char) : Bool := isPrintable c && c ≠ '\''

/-- A character of a key without quotes. -/
def isBare (c : Char) : Bool :=
  ('a' ≤ c && c ≤ 'z') || ('A' ≤ c && c ≤ 'Z') || ('0' ≤ c && c ≤ '9') || c == '-' || c == '_'

/-! ## Blanks and comments -/

def skipBlanks (cs : List Char) : List Char := cs.dropWhile isBlank

/-- What follows a newline. -/
def newline? : List Char → Option (List Char)
  | '\n' :: rest => some rest
  | '\r' :: '\n' :: rest => some rest
  | _ => none

/-- Skips a comment up to the end of its line. -/
def skipComment : List Char → List Char
  | '#' :: rest => rest.dropWhile isPrintable
  | cs => cs

/-- What follows a line that holds nothing more than blanks and a comment. -/
def endOfLine? (cs : List Char) : Option (List Char) :=
  match skipComment (skipBlanks cs) with
  | [] => some []
  | cs => newline? cs

/-- Skips blanks, newlines and comments; the flag says whether a comment is open. -/
def skipFiller (inComment : Bool) : List Char → List Char
  | [] => []
  | c :: rest =>
    if inComment && isPrintable c then skipFiller true rest
    else if isBlank c || c == '\n' || (c == '\r' && rest.head? == some '\n') then
      skipFiller false rest
    else if c == '#' then skipFiller true rest
    else c :: rest

/-! ## Strings -/

/-- The character that a one-letter escape stands for. -/
def escape? : Char → Option Char
  | '"' => some '"'
  | '\\' => some '\\'
  | 'b' => some '\x08'
  | 'f' => some '\x0c'
  | 'n' => some '\n'
  | 'r' => some '\r'
  | 't' => some '\t'
  | _ => none

/-- The character with the code that hexadecimal digits spell. -/
def scalar? (digits : List Char) : Option Char := do
  let code ← Json.Reader.hexNumber? digits
  if code.isValidChar then some (Char.ofNat code) else none

/-- The text that was read, in reverse, and what follows it. -/
def finish (read rest : List Char) : Option (String × List Char) :=
  some (String.ofList read.reverse, rest)

/-- The text after an opening double quote. -/
def basic? (read : List Char) : List Char → Option (String × List Char)
  | [] => none
  | '"' :: rest => finish read rest
  | '\\' :: 'u' :: a :: b :: c :: d :: rest =>
    match scalar? [a, b, c, d] with
    | some x => basic? (x :: read) rest
    | none => none
  | '\\' :: 'U' :: a :: b :: c :: d :: e :: f :: g :: h :: rest =>
    match scalar? [a, b, c, d, e, f, g, h] with
    | some x => basic? (x :: read) rest
    | none => none
  | '\\' :: letter :: rest =>
    match escape? letter with
    | some x => basic? (x :: read) rest
    | none => none
  | c :: rest => if isBasic c then basic? (c :: read) rest else none

/-- The text after an opening single quote. -/
def literal? (cs : List Char) : Option (String × List Char) :=
  match cs.dropWhile isLiteral with
  | '\'' :: rest => some (String.ofList (cs.takeWhile isLiteral), rest)
  | _ => none

/-- Where a reader of several lines stands: in the text, between a backslash and the newline that it
removes, or in the blanks that are removed with it. -/
inductive LineMode where
  | text
  | escapedEnd
  | removed
deriving DecidableEq

/-- The text of several lines after three double quotes. Up to two quotes may stand in front of the
closing three. -/
def basicLines? (mode : LineMode) (read : List Char) : List Char → Option (String × List Char)
  | [] => none
  | '\r' :: '\n' :: rest =>
    if mode = .text then basicLines? .text ('\n' :: read) rest else basicLines? .removed read rest
  | '\n' :: rest =>
    if mode = .text then basicLines? .text ('\n' :: read) rest else basicLines? .removed read rest
  | ' ' :: rest =>
    if mode = .text then basicLines? .text (' ' :: read) rest else basicLines? mode read rest
  | '\t' :: rest =>
    if mode = .text then basicLines? .text ('\t' :: read) rest else basicLines? mode read rest
  | '"' :: '"' :: '"' :: '"' :: '"' :: rest =>
    if mode = .escapedEnd then none else finish ('"' :: '"' :: read) rest
  | '"' :: '"' :: '"' :: '"' :: rest =>
    if mode = .escapedEnd then none else finish ('"' :: read) rest
  | '"' :: '"' :: '"' :: rest => if mode = .escapedEnd then none else finish read rest
  | '"' :: rest => if mode = .escapedEnd then none else basicLines? .text ('"' :: read) rest
  | '\\' :: 'u' :: a :: b :: c :: d :: rest =>
    match scalar? [a, b, c, d] with
    | some x => if mode = .escapedEnd then none else basicLines? .text (x :: read) rest
    | none => none
  | '\\' :: 'U' :: a :: b :: c :: d :: e :: f :: g :: h :: rest =>
    match scalar? [a, b, c, d, e, f, g, h] with
    | some x => if mode = .escapedEnd then none else basicLines? .text (x :: read) rest
    | none => none
  | '\\' :: letter :: rest =>
    if mode = .escapedEnd then none
    else if isBlank letter || letter == '\n' || letter == '\r' then
      basicLines? .escapedEnd read (letter :: rest)
    else
      match escape? letter with
      | some x => basicLines? .text (x :: read) rest
      | none => none
  | c :: rest =>
    if mode ≠ .escapedEnd && isBasic c then basicLines? .text (c :: read) rest else none

/-- The text of several lines after three single quotes. -/
def literalLines? (read : List Char) : List Char → Option (String × List Char)
  | [] => none
  | '\r' :: '\n' :: rest => literalLines? ('\n' :: read) rest
  | '\n' :: rest => literalLines? ('\n' :: read) rest
  | '\'' :: '\'' :: '\'' :: '\'' :: '\'' :: rest => finish ('\'' :: '\'' :: read) rest
  | '\'' :: '\'' :: '\'' :: '\'' :: rest => finish ('\'' :: read) rest
  | '\'' :: '\'' :: '\'' :: rest => finish read rest
  | '\'' :: rest => literalLines? ('\'' :: read) rest
  | c :: rest => if isLiteral c then literalLines? (c :: read) rest else none

/-- What follows an optional newline. -/
def skipNewline (cs : List Char) : List Char := (newline? cs).getD cs

/-- A string of any of the four forms. -/
def string? : List Char → Option (String × List Char)
  | '"' :: '"' :: '"' :: rest => basicLines? .text [] (skipNewline rest)
  | '"' :: rest => basic? [] rest
  | '\'' :: '\'' :: '\'' :: rest => literalLines? [] (skipNewline rest)
  | '\'' :: rest => literal? rest
  | _ => none

/-! ## Keys -/

/-- A key without dots. -/
def simpleKey? : List Char → Option (String × List Char)
  | '"' :: rest => basic? [] rest
  | '\'' :: rest => literal? rest
  | cs =>
    match cs.takeWhile isBare with
    | [] => none
    | key => some (String.ofList key, cs.dropWhile isBare)

/-- The longest path that a dotted key may have. -/
def maxKeyLength : Nat := 79

/-- The parts of a dotted key, at most as many as the first argument says. -/
def key? : Nat → List Char → Option (List String × List Char)
  | 0, _ => none
  | more + 1, cs => do
    let (part, rest) ← simpleKey? (skipBlanks cs)
    match skipBlanks rest with
    | '.' :: rest =>
      let (parts, rest) ← key? more rest
      return (part :: parts, rest)
    | rest => return ([part], rest)

end ClosedSwitch.Toml
