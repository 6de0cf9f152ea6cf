import Roteiro.Decimal.Remainder
import Roteiro.Value.Display

/-!
# Operators

What the operators make of their operands. `+` adds numbers, and joins a text with the text of
anything; the other arithmetic operators and the comparisons take numbers only. Equality takes
anything.
-/

namespace Roteiro

namespace Operator

/-- A number that may stand below a fraction. -/
def divisor (x : Float) : Except Failure Float := if x == 0.0 then .error .zeroDivisor else .ok x

/-- The sum of two numbers, or two texts in a row. -/
def plus (s : Store) : Value → Value → Except Failure Value
  | .number x, .number y => .ok (.number (x + y))
  | .string a, .string b => .ok (.string (a ++ b))
  | .string a, v => .ok (.string (a ++ s.text v))
  | v, .string b => .ok (.string (s.text v ++ b))
  | _, _ => .error .additionOperands

/-- An operator on two numbers. -/
def numeric (operator : Token) (x y : Float) : Except Failure Value :=
  match operator.kind with
  | .minus => .ok (.number (x - y))
  | .star => .ok (.number (x * y))
  | .slash => (divisor y).map fun y => .number (x / y)
  | .percent => (divisor y).map fun y => .number (Decimal.remainder x y)
  | .greater => .ok (.boolean (y < x))
  | .greaterEqual => .ok (.boolean (y ≤ x))
  | .less => .ok (.boolean (x < y))
  | .lessEqual => .ok (.boolean (x ≤ y))
  | _ => .error (.unknownOperator operator.lexeme)

/-- An operator between two values. -/
def binary (s : Store) (operator : Token) (left right : Value) : Except Failure Value :=
  match operator.kind with
  | .equalEqual => .ok (.boolean (left.looseEq right))
  | .bangEqual => .ok (.boolean (!left.looseEq right))
  | .plus => plus s left right
  | _ =>
    match left, right with
    | .number x, .number y => numeric operator x y
    | _, _ => .error (.numericOperands operator.lexeme)

/-- An operator in front of a value. -/
def unary (operator : Token) (operand : Value) : Except Failure Value :=
  match operator.kind, operand with
  | .minus, .number x => .ok (.number (-x))
  | .minus, _ => .error .negationOperand
  | _, v => .ok (.boolean (!v.truthy))

end Operator

end Roteiro
