import Roteiro.Decimal.Binary

/-!
# The fewest digits that read back

Every positive double is the nearest one to a whole interval of real numbers. `Digits.shortest`
names it by the decimal in that interval with the fewest digits and, among those, the one
closest to the double itself. Two decimals can be equally close; which of them is taken is for the
format to say (`Tie`).

The search is exact. The double and the ends of its interval are fractions over one common
denominator (`Interval`). For one, two, … seventeen digits the two neighbours of the double on
the decimal grid with that many digits are tested; the first grid with a neighbour inside the
interval settles the answer.
-/

namespace Roteiro

namespace Decimal

/-- The decimal `coefficient · 10 ^ exponent`. -/
structure Digits where
  coefficient : Nat
  exponent : Int
  deriving DecidableEq, Repr

/-- Which of two neighbouring numbers stands for a value halfway between them. -/
inductive Tie where
  /-- The greater one. -/
  | up
  /-- The even one. -/
  | toEven
  deriving DecidableEq, Repr

/-- The one of `below` and `below + 1` that stands for the value halfway between them. -/
def Tie.settle (tie : Tie) (below : Nat) : Nat :=
  match tie with
  | .up => below + 1
  | .toEven => if below % 2 = 0 then below else below + 1

/-- How many decimal digits a natural number has. -/
def digitCount (n : Nat) : Nat := (Nat.toDigits 10 n).length

/-- A positive number `value / denominator` and the interval from `low / denominator` to
`high / denominator` around it. -/
structure Interval where
  low : Nat
  value : Nat
  high : Nat
  denominator : Nat
  /-- Whether the ends belong to the interval. -/
  closed : Bool

namespace Interval

/-- The reals whose nearest double is `mantissa · 2 ^ exponent`. The gap below the least mantissa
of 53 bits is half as wide as the gap above it. A real halfway between two doubles belongs to the
one with the even mantissa. -/
def ofBinary (mantissa : Nat) (exponent : Int) : Interval :=
  let narrow := mantissa = Nat.pow 2 52 ∧ Binary.leastExponent < exponent
  let scale := Nat.pow 2 (exponent - 2).toNat
  { low := (4 * mantissa - if narrow then 1 else 2) * scale
    value := 4 * mantissa * scale
    high := (4 * mantissa + 2) * scale
    denominator := Nat.pow 2 (2 - exponent).toNat
    closed := mantissa % 2 = 0 }

/-- Whether the fraction `numerator / (denominator · divisor)` lies in the interval. -/
def contains (i : Interval) (numerator divisor : Nat) : Bool :=
  let low := i.low * divisor
  let high := i.high * divisor
  if i.closed then low ≤ numerator && numerator ≤ high else low < numerator && numerator < high

/-- The number of digits before the point, if the value is at least one; otherwise minus the
number of zeros after the point. The value is at least a tenth of ten to this power, and less
than ten to this power. -/
def magnitude (i : Interval) : Int :=
  if i.denominator ≤ i.value then digitCount (i.value / i.denominator)
  else 1 - Int.ofNat (digitCount ((i.denominator - 1) / i.value))

/-- The point nearest to the value on the grid of multiples of `10 ^ exponent`, among the two
neighbours of the value that lie in the interval. Between two equally near ones, `tie` decides. -/
def nearestOnGrid (i : Interval) (tie : Tie) (exponent : Int) : Option Nat :=
  let unit := i.denominator * Nat.pow 10 exponent.toNat
  let divisor := Nat.pow 10 (-exponent).toNat
  let value := i.value * divisor
  let below := value / unit
  let above := below + 1
  let low := i.contains (below * unit) divisor
  let high := i.contains (above * unit) divisor
  if low && high then
    match compare (value - below * unit) (above * unit - value) with
    | .lt => some below
    | .eq => some (tie.settle below)
    | .gt => some above
  else if low then some below
  else if high then some above
  else none

/-- Tries the grids with `count`, `count + 1`, … digits, `tries` of them. -/
def search (i : Interval) (tie : Tie) (count : Nat) : Nat → Digits
  | 0 => ⟨0, 0⟩
  | tries + 1 =>
    let exponent := i.magnitude - Int.ofNat count
    match i.nearestOnGrid tie exponent with
    | some coefficient => ⟨coefficient, exponent⟩
    | none => search i tie (count + 1) tries

end Interval

namespace Digits

/-- The same decimal without zeros at the end of its coefficient, of which there are at most
`limit`. -/
def dropZeros (d : Digits) : Nat → Digits
  | 0 => d
  | limit + 1 =>
    if d.coefficient % 10 = 0 ∧ d.coefficient ≠ 0 then
      dropZeros ⟨d.coefficient / 10, d.exponent + 1⟩ limit
    else d

/-- The decimal with the fewest digits that reads back as `mantissa · 2 ^ exponent`, the nearest of
them. Seventeen digits are always enough. -/
def shortest (tie : Tie) (mantissa : Nat) (exponent : Int) : Digits :=
  if mantissa = 0 then ⟨0, 0⟩
  else ((Interval.ofBinary mantissa exponent).search tie 1 17).dropZeros 17

end Digits

end Decimal

end Roteiro
