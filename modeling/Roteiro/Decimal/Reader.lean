import Roteiro.Decimal.Layout
import Roteiro.Text.Blank

/-!
# How numbers are read

A number is written with an optional sign and then either a word for infinity or for the absence
of a number, in any case, or digits with an optional point among them and an optional power of
ten. At least one digit stands before the power. The value is the double nearest to the decimal.
-/

namespace Roteiro

namespace Decimal

/-- The value of a text of decimal digits, behind digits of value `start`. -/
def digitsValue (start : Nat) (cs : List Char) : Nat :=
  cs.foldl (fun n c => n * 10 + (c.toNat - '0'.toNat)) start

/-- The nearest double to `coefficient · 10 ^ exponent`. A decimal beyond `10 ^ 310` is beyond every
finite double, and one below `10 ^ -325` is nearest to zero. -/
def nearest (coefficient : Nat) (exponent : Int) : Float :=
  let magnitude := exponent + Int.ofNat (digitCount coefficient)
  if coefficient = 0 then Binary.toFloat (.finite false 0 0)
  else if 310 < magnitude then Binary.toFloat (.infinite false)
  else if magnitude < -325 then Binary.toFloat (.finite false 0 0)
  else Float.ofScientific coefficient (decide (exponent < 0)) exponent.natAbs

/-- Reads the digits after an exponent mark, with an optional sign in front. -/
def readExponent (cs : List Char) : Option Int :=
  let (negative, digits) :=
    match cs with
    | '-' :: rest => (true, rest)
    | '+' :: rest => (false, rest)
    | _ => (false, cs)
  if digits ≠ [] ∧ digits.all Char.isDigit then
    some (Binary.signed negative (digitsValue 0 digits))
  else none

/-- Reads a decimal without a sign. -/
def readDecimal (cs : List Char) : Option Float :=
  let whole := cs.takeWhile Char.isDigit
  let afterWhole := cs.dropWhile Char.isDigit
  let afterPoint :=
    match afterWhole with
    | '.' :: rest => rest
    | _ => []
  let fraction := afterPoint.takeWhile Char.isDigit
  let rest :=
    match afterWhole with
    | '.' :: _ => afterPoint.dropWhile Char.isDigit
    | _ => afterWhole
  let coefficient := digitsValue (digitsValue 0 whole) fraction
  if whole = [] ∧ fraction = [] then none
  else
    match rest with
    | [] => some (nearest coefficient (-(Int.ofNat fraction.length)))
    | mark :: power =>
      if mark = 'e' ∨ mark = 'E' then
        (readExponent power).map fun e => nearest coefficient (e - Int.ofNat fraction.length)
      else none

/-- Reads a number without a sign. -/
def readUnsigned (cs : List Char) : Option Float :=
  let word := cs.map Char.toLower
  if word = "inf".toList ∨ word = "infinity".toList then some (Binary.toFloat (.infinite false))
  else if word = "nan".toList then some (Binary.toFloat .notANumber)
  else readDecimal cs

/-- Reads a number that fills the whole text. -/
def read? (cs : List Char) : Option Float :=
  match cs with
  | '-' :: rest => (readUnsigned rest).map Float.neg
  | '+' :: rest => readUnsigned rest
  | _ => readUnsigned cs

/-- Reads a number that fills the whole text but for blanks around it. -/
def readTrimmed? (s : String) : Option Float := read? (Text.trim s.toList)

end Decimal

end Roteiro
