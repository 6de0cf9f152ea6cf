import Roteiro.Decimal.Binary

/-!
# The remainder of a division

`remainder x y` is what is left of `x` after taking away `y` as often as it fits, with the sign of
`x`. It is exact: on a common exponent both magnitudes are natural numbers, and the remainder of
those is again a double.
-/

namespace Roteiro

namespace Decimal

namespace Binary

/-- The remainder of two numbers in parts. There is none on division by zero and none of an
infinity; taking away an infinity changes nothing. -/
def remainder : Binary → Binary → Binary
  | .finite negative m e, .finite _ n f =>
    if n = 0 then .notANumber
    else
      let least := min e f
      .finite negative (m * Nat.pow 2 (e - least).toNat % (n * Nat.pow 2 (f - least).toNat)) least
  | x@(.finite _ _ _), .infinite _ => x
  | _, _ => .notANumber

end Binary

/-- The remainder of two doubles. -/
def remainder (x y : Float) : Float :=
  ((Binary.ofFloat x).remainder (Binary.ofFloat y)).toFloat

end Decimal

end Roteiro
