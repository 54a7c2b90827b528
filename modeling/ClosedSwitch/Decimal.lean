/-!
# Decimal literals

A number as it is written, and whether it is in the range of doubles. There are two ways to tell.
A literal is in range *exactly* when the double nearest to it is finite. It is in range *by parts*
when the product of two doubles is finite, one nearest to its leading digits and one nearest to its
power of ten. Near the largest double neither implies the other.
-/

namespace ClosedSwitch

/-- The number that decimal digits spell. -/
def natOfDigits (digits : List Char) : Nat :=
  digits.foldl (fun n c => 10 * n + (c.toNat - '0'.toNat)) 0

/-- A literal: its digits before and after the point, and its power of ten if it has one. -/
structure Decimal where
  negative : Bool := false
  whole : List Char
  fraction : List Char := []
  exponent : Option Int := none
deriving DecidableEq, Repr

/-- Numbers from this one on round beyond the largest double. -/
def doubleLimit : Nat := Nat.pow 2 1024 - Nat.pow 2 970

/-- The number of 53 binary digits, followed by zeros, that is nearest to `n`; of two such numbers
the even one. Below `doubleLimit` this is the nearest double. -/
def roundToDouble (n : Nat) : Nat :=
  let unit := Nat.pow 2 (n.log2 - 52)
  let low := n / unit
  let rest := n % unit
  unit * (if 2 * rest < unit then low else if unit < 2 * rest then low + 1 else low + low % 2)

namespace Decimal

def ofNat (n : Nat) : Decimal := { whole := (toString n).toList }

/-- The text of a literal. -/
def render (d : Decimal) : String :=
  (if d.negative then "-" else "") ++ String.ofList d.whole
    ++ (if d.fraction.isEmpty then "" else "." ++ String.ofList d.fraction)
    ++ (match d.exponent with
      | none => ""
      | some power => s!"e{power}")

/-- The value of a literal that consists of digits alone. -/
def nat? (d : Decimal) : Option Nat :=
  if d.negative || !d.fraction.isEmpty || d.exponent.isSome then none
  else some (natOfDigits d.whole)

/-- Whether the nearest double is finite. With the point moved in front of the first digit that is
not zero, the power of ten settles all but the literals of 309 places. -/
def inRange (d : Decimal) : Bool :=
  let digits := (d.whole ++ d.fraction).dropWhile (· == '0')
  let places : Int := digits.length + d.exponent.getD 0 - d.fraction.length
  if digits.isEmpty || places < 309 then true
  else if 309 < places then false
  else natOfDigits digits * Nat.pow 10 (309 - digits.length)
    < doubleLimit * Nat.pow 10 (digits.length - 309)

/-- Appends digits to `n` as long as it stays within 64 bits; `taken` counts them. -/
def appendDigits (n taken : Nat) : List Char → Nat × Nat
  | [] => (n, taken)
  | c :: rest =>
    let next := 10 * n + (c.toNat - '0'.toNat)
    if next < Nat.pow 2 64 then appendDigits next (taken + 1) rest else (n, taken)

/-- The leading digits as a number of 64 bits, and the power of ten that belongs to it. Digits that
do not fit any more are dropped, those before the point apart from those after it. -/
def leading (d : Decimal) : Nat × Int :=
  let (n, taken) := appendDigits 0 0 d.whole
  let (n, takenAfter) := appendDigits n 0 d.fraction
  (n, d.exponent.getD 0 + (d.whole.length - taken : Nat) - takenAfter)

/-- Whether the leading digits times their power of ten, both rounded to doubles first, are finite.
A quotient always is, and the powers of ten end at the 308th. -/
def inRangeByParts (d : Decimal) : Bool :=
  let (n, power) := d.leading
  if n = 0 || power < 0 then true
  else if 308 < power then false
  else roundToDouble n * roundToDouble (Nat.pow 10 power.toNat) < doubleLimit

end Decimal

end ClosedSwitch
