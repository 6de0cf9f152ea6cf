import Roteiro.Token.Basic

/-!
# Causes of run-time errors

A run stops at the first operation that can not be carried out. A `Failure` says what was asked
of which kind of value; a `RuntimeError` adds the token it is blamed on.
-/

namespace Roteiro

/-- The types that the language tells apart. -/
inductive ValueType where
  | number
  | string
  | boolean
  | nil
  | function
  | classType
  | array
  | instanceType
  deriving DecidableEq, Repr

/-- The name of a type in messages. -/
def ValueType.name : ValueType → String
  | number => "number"
  | string => "string"
  | boolean => "boolean"
  | nil => "nil"
  | function => "function"
  | classType => "class"
  | array => "array"
  | instanceType => "instance"

/-- How many arguments a callable accepts. -/
inductive Arity where
  | fixed (count : Nat)
  | oneOf (counts : List Nat)
  deriving DecidableEq, Repr

namespace Arity

/-- The accepted counts in words. -/
def text : Arity → String
  | fixed count => Decimal.naturalText count
  | oneOf counts => " or ".intercalate (counts.map Decimal.naturalText)

end Arity

/-- The most entries that a builtin will put into a new array. -/
def maxFill : Nat := 16777216

/-- Why an operation can not be carried out. -/
inductive Failure where
  | undefinedVariable (name : String)
  | undefinedProperty (name : String)
  | undefinedKey (key : String)
  /-- Unary minus of something else than a number. -/
  | negationOperand
  /-- `+` of operands that neither are two numbers nor hold a text. -/
  | additionOperands
  /-- Another operator applied to something else than numbers. -/
  | numericOperands (operator : String)
  | unknownOperator (operator : String)
  | zeroDivisor
  | notIndexable (found : ValueType)
  | badIndex
  | propertyOfNonInstance
  | fieldOfNonInstance
  | notCallable
  | argumentCount (expected : Arity) (got : Nat)
  /-- A builtin's argument in the given role should be a number. -/
  | notANumber (role : String) (found : ValueType)
  /-- A size that is negative or no integer, by its text. -/
  | badSize (size : String)
  /-- A size beyond `maxFill`, by its text. -/
  | sizeTooLarge (size : String)
  | notAnArray
  | badKey
  | noSize (found : ValueType)
  | emptyRange
  | unreadableInput
  /-- A complaint of the host, in its own words. -/
  | custom (text : String)
  deriving DecidableEq, Repr

/-- The wording of a failure. -/
def Failure.message : Failure → String
  | undefinedVariable name => s!"Undefined variable '{name}'."
  | undefinedProperty name => s!"Undefined property '{name}'."
  | undefinedKey key => s!"Undefined key '{key}'."
  | negationOperand => "Operand of '-' must be a number."
  | additionOperands => "Operator '+' expects two numbers or a string."
  | numericOperands operator => s!"Operator '{operator}' expects numbers."
  | unknownOperator operator => s!"Unknown binary operator '{operator}'."
  | zeroDivisor => "Divisor must be non-zero."
  | notIndexable found => s!"Only arrays can be indexed, not {found.name}."
  | badIndex => "Array index must be a number or a string."
  | propertyOfNonInstance => "Only instances have properties."
  | fieldOfNonInstance => "Only instances have fields."
  | notCallable => "Can only call functions and classes."
  | argumentCount expected got => s!"Expected {expected.text} arguments but got {got}."
  | notANumber role found => s!"{role} must be a number, not {found.name}."
  | badSize size => s!"Size must be a non-negative integer, not {size}."
  | sizeTooLarge size => s!"Size must be at most {maxFill}, not {size}."
  | notAnArray => "First argument must be an array."
  | badKey => "Array key must be a number or a string."
  | noSize found => s!"Can't take the size of a {found.name}."
  | emptyRange => "Minimum must not be greater than maximum."
  | unreadableInput => "Failed to read input: stream did not contain valid UTF-8"
  | custom text => text

/-- A failure and the token it is blamed on. -/
structure RuntimeError where
  token : Token
  failure : Failure
  deriving DecidableEq, Repr

/-- The text of a run-time error: what happened, then where. -/
def RuntimeError.text (e : RuntimeError) : String :=
  s!"{e.failure.message}\n[line {e.token.line}]"

end Roteiro
