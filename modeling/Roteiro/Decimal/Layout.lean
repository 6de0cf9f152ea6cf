import Roteiro.Decimal.Shortest

/-!
# How numbers are written

Three formats, all built from the shortest digits:

* `display`, the text of a number in the language: an integer below `10 ^ 15` without a point,
  anything else by its shortest digits and never with an exponent;
* `literal`, the text of a number beside its token: as `display`, but an integer below `10 ^ 15`
  keeps a `.0`;
* `json`, the text of a number in a JSON document: always with a point or an exponent.

Where two shortest decimals are equally near, the first two formats take the greater one, and `json`
the one whose last digit is even.
-/

namespace Roteiro

namespace Decimal

/-- So many zeros. -/
def zeros (n : Nat) : List Char := List.replicate n '0'

/-- The decimal digits of a natural number. -/
def digitsOf (n : Nat) : List Char := Nat.toDigits 10 n

/-- The text of a natural number. -/
def naturalText (n : Nat) : String := String.ofList (digitsOf n)

/-- The text of an integer. -/
def integerText (n : Int) : String :=
  match n with
  | .ofNat k => naturalText k
  | .negSucc k => String.ofList ('-' :: digitsOf (k + 1))

namespace Digits

/-- Positional text: all digits, with a point where the exponent puts it and none after an
integer. -/
def positional (d : Digits) : List Char :=
  let digits := digitsOf d.coefficient
  match d.exponent with
  | .ofNat k => digits ++ zeros k
  | .negSucc k =>
    let places := k + 1
    if places < digits.length then
      digits.take (digits.length - places) ++ '.' :: digits.drop (digits.length - places)
    else '0' :: '.' :: zeros (places - digits.length) ++ digits

/-- Positional text that always has a point. -/
def pointed (d : Digits) : List Char :=
  match d.exponent with
  | .ofNat _ => d.positional ++ ['.', '0']
  | .negSucc _ => d.positional

/-- Scientific text: one digit, the others after a point, and the exponent with its sign. -/
def scientific (d : Digits) : List Char :=
  let digits := digitsOf d.coefficient
  let exponent := d.exponent + (Int.ofNat digits.length - 1)
  let mantissa :=
    match digits with
    | lead :: rest@(_ :: _) => lead :: '.' :: rest
    | _ => digits
  let sign := if exponent < 0 then '-' else '+'
  mantissa ++ 'e' :: sign :: digitsOf exponent.natAbs

end Digits

/-- Integers below this bound are written as integers. -/
def integerBound : Int := Int.ofNat (Nat.pow 10 15)

/-- The integer that is written for a number, if it is written as one. -/
def shownInteger? (b : Binary) : Option Int :=
  b.toInt?.filter fun n => n.natAbs < integerBound.natAbs

/-- The sign in front of a text. -/
def withSign (negative : Bool) (text : List Char) : String :=
  String.ofList (if negative then '-' :: text else text)

/-- The text by the shortest digits, without an exponent. -/
def positionalText : Binary → String
  | .finite negative mantissa exponent =>
    withSign negative (Digits.shortest .up mantissa exponent).positional
  | .infinite negative => withSign negative ['i', 'n', 'f']
  | .notANumber => "NaN"

/-- The text of a number in the language. Both zeros are written `0`. -/
def display (x : Float) : String :=
  let b := Binary.ofFloat x
  match shownInteger? b with
  | some n => integerText n
  | none => positionalText b

/-- The text of a number beside its token. -/
def literal (x : Float) : String :=
  let b := Binary.ofFloat x
  match shownInteger? b with
  | some n => integerText n ++ ".0"
  | none => positionalText b

/-- The text of a number in a JSON document: with a point for decimal exponents from `-5` to
`15`, scientific otherwise. What is no number is `null`. -/
def json (x : Float) : String :=
  match Binary.ofFloat x with
  | .finite negative mantissa exponent =>
    let d := Digits.shortest .toEven mantissa exponent
    let place := d.exponent + (Int.ofNat (digitCount d.coefficient) - 1)
    withSign negative (if -5 ≤ place ∧ place ≤ 15 then d.pointed else d.scientific)
  | .infinite _ => "null"
  | .notANumber => "null"

end Decimal

end Roteiro
