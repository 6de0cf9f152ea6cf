/-!
# Doubles as mantissa and exponent

A double that is a number is a sign and a value `mantissa · 2 ^ exponent`; `Binary.ofFloat` reads
these parts off its bits, and `Binary.toFloat` puts them together again. All exact questions about
numbers (is it an integer, what is its remainder, which decimals round to it) are asked of the
parts, in arithmetic on natural numbers and integers.
-/

namespace Roteiro

namespace Decimal

/-- The parts of a double. -/
inductive Binary where
  /-- The number `± mantissa · 2 ^ exponent`. -/
  | finite (negative : Bool) (mantissa : Nat) (exponent : Int)
  | infinite (negative : Bool)
  | notANumber
  deriving DecidableEq, Repr

namespace Binary

/-- The exponent of the smallest positive double. -/
def leastExponent : Int := -1074

/-- The parts of a double given by its 64 bits. A number that is not subnormal has a mantissa of
53 bits. -/
def ofBits (bits : Nat) : Binary :=
  let negative := decide (Nat.pow 2 63 ≤ bits)
  let biased := bits / Nat.pow 2 52 % Nat.pow 2 11
  let fraction := bits % Nat.pow 2 52
  if biased = Nat.pow 2 11 - 1 then
    if fraction = 0 then .infinite negative else .notANumber
  else if biased = 0 then .finite negative fraction leastExponent
  else .finite negative (fraction + Nat.pow 2 52) (Int.ofNat biased - 1075)

/-- The parts of a double. -/
def ofFloat (x : Float) : Binary := ofBits x.toBits.toNat

/-- How far a mantissa below `2 ^ 53` is shifted to the left, at most until its exponent is the
least one. -/
def headroom (mantissa : Nat) (exponent : Int) : Nat :=
  min (52 - mantissa.log2) (exponent - leastExponent).toNat

/-- The 64 bits of a double given by its parts. The mantissa is below `2 ^ 53`, and the exponent
neither below the least one nor so large that the number overflows. -/
def toBits : Binary → Nat
  | .finite negative mantissa exponent =>
    let sign := if negative then Nat.pow 2 63 else 0
    if mantissa = 0 then sign
    else
      let shift := headroom mantissa exponent
      let aligned := mantissa * Nat.pow 2 shift
      if aligned < Nat.pow 2 52 then sign + aligned
      else sign + (exponent - shift + 1075).toNat * Nat.pow 2 52 + (aligned - Nat.pow 2 52)
  | .infinite negative => 
    (if negative then Nat.pow 2 63 else 0) + (Nat.pow 2 11 - 1) * Nat.pow 2 52
  | .notANumber => 0x7FF8000000000000

/-- The double with the given parts. -/
def toFloat (b : Binary) : Float := Float.ofBits (UInt64.ofNat b.toBits)

/-- The integer with the given sign and magnitude. -/
def signed (negative : Bool) (magnitude : Nat) : Int :=
  if negative then -(Int.ofNat magnitude) else Int.ofNat magnitude

/-- The integer that the number equals, if it is one. Both zeros equal `0`. -/
def toInt? : Binary → Option Int
  | .finite negative mantissa (.ofNat k) => some (signed negative (mantissa * Nat.pow 2 k))
  | .finite negative mantissa (.negSucc k) =>
    if mantissa % Nat.pow 2 (k + 1) = 0 then some (signed negative (mantissa / Nat.pow 2 (k + 1)))
    else none
  | .infinite _ => none
  | .notANumber => none

/-- The greatest integer that is not greater than the number. -/
def floor? : Binary → Option Int
  | .finite negative mantissa (.ofNat k) => some (signed negative (mantissa * Nat.pow 2 k))
  | .finite negative mantissa (.negSucc k) =>
    some (Int.fdiv (signed negative mantissa) (Nat.pow 2 (k + 1)))
  | .infinite _ => none
  | .notANumber => none

end Binary

end Decimal

end Roteiro
