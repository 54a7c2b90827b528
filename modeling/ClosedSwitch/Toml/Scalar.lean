import ClosedSwitch.Toml.Basic
import ClosedSwitch.Toml.Lexical

/-!
# Numbers and dates of TOML

Digits may be separated by single underscores. A date or time is tried before a float, and a float
before an integer, so that the longest reading wins.
-/

namespace ClosedSwitch.Toml

/-! ## Digits -/

/-- Digits of a class with single underscores between them, the underscores dropped. -/
def separated? (isDigit : Char → Bool) (read : List Char) :
    List Char → Option (List Char × List Char)
  | '_' :: c :: rest =>
    if !read.isEmpty && isDigit c then separated? isDigit (c :: read) rest else none
  | c :: rest =>
    if isDigit c then separated? isDigit (c :: read) rest
    else if read.isEmpty || c == '_' then none
    else some (read.reverse, c :: rest)
  | [] => if read.isEmpty then none else some (read.reverse, [])

/-- A sign, if there is one: whether it is a minus. -/
def sign : List Char → Bool × List Char
  | '-' :: rest => (true, rest)
  | '+' :: rest => (false, rest)
  | cs => (false, cs)

/-- Decimal digits without a leading zero, or a single zero. -/
def decimalDigits? : List Char → Option (List Char × List Char)
  | '0' :: rest => some (['0'], rest)
  | cs => separated? Char.isDigit [] cs

/-! ## Integers and floats -/

/-- Whether an integer fits into 64 bits. -/
def isWord (n : Int) : Bool := -9223372036854775808 ≤ n && n < 9223372036854775808

def integerOf? (n : Int) (rest : List Char) : Option (Value × List Char) :=
  if isWord n then some (.integer n, rest) else none

/-- An integer whose digits are in the given base. -/
def based? (base : Nat) (cs : List Char) : Option (Value × List Char) := do
  let isDigit := fun c => (Json.Reader.hexDigit? c).any (· < base)
  let (digits, rest) ← separated? isDigit [] cs
  let value := digits.foldl (fun n c => base * n + (Json.Reader.hexDigit? c).getD 0) 0
  integerOf? value rest

def integer? : List Char → Option (Value × List Char)
  | '0' :: 'x' :: rest => based? 16 rest
  | '0' :: 'o' :: rest => based? 8 rest
  | '0' :: 'b' :: rest => based? 2 rest
  | cs => do
    let (negative, rest) := sign cs
    let (digits, rest) ← decimalDigits? rest
    let value : Int := natOfDigits digits
    integerOf? (if negative then -value else value) rest

/-- The part of a float after its exponent mark. -/
def exponent? : List Char → Option (Int × List Char)
  | mark :: rest =>
    if mark == 'e' || mark == 'E' then do
      let (negative, rest) := sign rest
      let (digits, rest) ← separated? Char.isDigit [] rest
      let value : Int := natOfDigits digits
      return (if negative then -value else value, rest)
    else none
  | [] => none

/-- A float with a fraction, an exponent, or both; one that rounds to positive infinity is
refused. -/
def decimalFloat? (cs : List Char) : Option (Value × List Char) := do
  let (negative, digits) := sign cs
  let (whole, rest) ← decimalDigits? digits
  let (fraction, exponent, rest) ← match rest with
    | '.' :: rest => do
      let (fraction, rest) ← separated? Char.isDigit [] rest
      match exponent? rest with
      | some (exponent, rest) => some (fraction, some exponent, rest)
      | none => some (fraction, none, rest)
    | rest => (exponent? rest).map fun (exponent, rest) => ([], some exponent, rest)
  let number : Decimal := { negative, whole, fraction, exponent }
  if negative || number.inRange then
    some (.float (cs.take (cs.length - rest.length)), rest)
  else none

/-- A float in words. -/
def namedFloat? (cs : List Char) : Option (Value × List Char) :=
  match (sign cs).2 with
  | 'i' :: 'n' :: 'f' :: rest => some (.float ['i', 'n', 'f'], rest)
  | 'n' :: 'a' :: 'n' :: rest => some (.float ['n', 'a', 'n'], rest)
  | _ => none

/-! ## Dates and times -/

/-- Exactly `count` digits, as a number. -/
def fixedDigits? (count : Nat) (cs : List Char) : Option (Nat × List Char) :=
  let digits := cs.take count
  if digits.length = count && digits.all Char.isDigit then
    some (natOfDigits digits, cs.drop count)
  else none

/-- Two digits for a number within bounds. -/
def twoDigits? (low high : Nat) (cs : List Char) : Option (Nat × List Char) := do
  let (n, rest) ← fixedDigits? 2 cs
  if low ≤ n && n ≤ high then some (n, rest) else none

def expect? (c : Char) : List Char → Option (List Char)
  | d :: rest => if c = d then some rest else none
  | [] => none

def isLeapYear (year : Nat) : Bool := year % 4 = 0 && (year % 100 ≠ 0 || year % 400 = 0)

def daysInMonth (year month : Nat) : Nat :=
  if month = 2 then (if isLeapYear year then 29 else 28)
  else if month ∈ [4, 6, 9, 11] then 30
  else 31

def date? (cs : List Char) : Option (Date × List Char) := do
  let (year, rest) ← fixedDigits? 4 cs
  let (month, rest) ← twoDigits? 1 12 (← expect? '-' rest)
  let (day, rest) ← twoDigits? 1 31 (← expect? '-' rest)
  if day ≤ daysInMonth year month then some (⟨year, month, day⟩, rest) else none

/-- The digits after a point. -/
def secondFraction : List Char → List Char × List Char
  | '.' :: rest =>
    match rest.takeWhile Char.isDigit with
    | [] => ([], '.' :: rest)
    | digits => (digits, rest.dropWhile Char.isDigit)
  | cs => ([], cs)

def time? (cs : List Char) : Option (Time × List Char) := do
  let (hour, rest) ← twoDigits? 0 23 cs
  let (minute, rest) ← twoDigits? 0 59 (← expect? ':' rest)
  let (second, rest) ← twoDigits? 0 60 (← expect? ':' rest)
  let (fraction, rest) := secondFraction rest
  return (⟨hour, minute, second, fraction⟩, rest)

def offset? : List Char → Option (Offset × List Char)
  | 'Z' :: rest => some (.zero, rest)
  | 'z' :: rest => some (.zero, rest)
  | mark :: rest =>
    if mark == '+' || mark == '-' then do
      let (hour, rest) ← twoDigits? 0 23 rest
      let (minute, rest) ← twoDigits? 0 59 (← expect? ':' rest)
      return (.shifted (mark == '-') hour minute, rest)
    else none
  | [] => none

/-- The time and offset after a date, if there are any. -/
def timeAfterDate (cs : List Char) : Option Time × Option Offset × List Char :=
  match cs with
  | mark :: rest =>
    if mark == 'T' || mark == 't' || mark == ' ' then
      match time? rest with
      | some (time, rest) =>
        match offset? rest with
        | some (offset, rest) => (some time, some offset, rest)
        | none => (some time, none, rest)
      | none => (none, none, cs)
    else (none, none, cs)
  | [] => (none, none, cs)

def dateTime? (cs : List Char) : Option (Value × List Char) :=
  match date? cs with
  | some (date, rest) =>
    let (time, offset, rest) := timeAfterDate rest
    some (.dateTime { date := some date, time, offset }, rest)
  | none => (time? cs).map fun (time, rest) => (.dateTime { time := some time }, rest)

/-! ## Any scalar that is not a string -/

/-- A date, time or number. -/
def numeric? (cs : List Char) : Option (Value × List Char) :=
  (dateTime? cs).or ((decimalFloat? cs).or ((namedFloat? cs).or (integer? cs)))

def scalarValue? : List Char → Option (Value × List Char)
  | 't' :: 'r' :: 'u' :: 'e' :: rest => some (.boolean true, rest)
  | 'f' :: 'a' :: 'l' :: 's' :: 'e' :: rest => some (.boolean false, rest)
  | cs => numeric? cs

/-! ## Writing dates -/

/-- A number with zeros in front up to a width. -/
def padded (width n : Nat) : String :=
  let digits := (toString n).toList
  String.ofList (List.replicate (width - digits.length) '0' ++ digits)

def Date.render (d : Date) : String :=
  padded 4 d.year ++ "-" ++ padded 2 d.month ++ "-" ++ padded 2 d.day

/-- The time with at most nine digits after the point and no zeros at the end. -/
def Time.render (t : Time) : String :=
  let digits := ((t.fraction.take 9).reverse.dropWhile (· == '0')).reverse
  padded 2 t.hour ++ ":" ++ padded 2 t.minute ++ ":" ++ padded 2 t.second
    ++ (if digits.isEmpty then "" else "." ++ String.ofList digits)

def Offset.render : Offset → String
  | .zero => "Z"
  | .shifted negative hour minute =>
    (if negative && 0 < hour + minute then "-" else "+") ++ padded 2 hour ++ ":" ++ padded 2 minute

def DateTime.render (d : DateTime) : String :=
  (d.date.map Date.render).getD ""
    ++ (if d.date.isSome && d.time.isSome then "T" else "")
    ++ (d.time.map Time.render).getD ""
    ++ (d.offset.map Offset.render).getD ""

end ClosedSwitch.Toml
