import Roteiro.Decimal.Reader
import Roteiro.Report.Failure

/-!
# Values

Numbers, texts, truth values and `nulo` are what they are. Functions, classes, arrays and instances
are references into the store, so that two values may share one of them; the builtin functions are
named outright.

Equality is loose: a number and a text are compared as numbers, and a truth value is compared with
the truth of anything else. What lives in the store is equal only to itself.
-/

namespace Roteiro

/-- The parts of the store. -/
inductive Region where
  | frames
  | functions
  | classes
  | arrays
  | instances
  deriving DecidableEq, Repr

/-- A reference into a part of the store. -/
structure Ref (region : Region) where
  index : Nat
  deriving DecidableEq, Repr, Inhabited

/-- The functions that every program finds among its globals. -/
inductive Builtin where
  | clock
  | power
  | readLine
  | size
  | push
  | insert
  | hasKey
  | randomInteger
  | fillList
  | newVector
  deriving DecidableEq, Repr

namespace Builtin

/-- All builtin functions. -/
def all : List Builtin :=
  [clock, power, readLine, size, push, insert, hasKey, randomInteger, fillList, newVector]

/-- The spellings of a builtin function. -/
def spellings : Builtin → List String
  | clock => ["relogio", "relógio"]
  | power => ["potencia", "potência"]
  | readLine => ["leia"]
  | size => ["tamanho"]
  | push => ["empilhar"]
  | insert => ["inserir"]
  | hasKey => ["temChave"]
  | randomInteger => ["intAleatorio", "intAleatório"]
  | fillList => ["preencherLista"]
  | newVector => ["vetor"]

/-- The name of a builtin function: its first spelling. -/
def name (b : Builtin) : String := b.spellings.headD ""

/-- How many arguments a builtin function takes. -/
def arity : Builtin → Arity
  | clock => .fixed 0
  | power => .fixed 2
  | readLine => .fixed 0
  | size => .fixed 1
  | push => .fixed 2
  | insert => .fixed 3
  | hasKey => .fixed 2
  | randomInteger => .fixed 2
  | fillList => .fixed 2
  | newVector => .oneOf [1, 2]

end Builtin

/-- A value of the language. -/
inductive Value where
  | number (value : Float)
  | string (text : String)
  | boolean (value : Bool)
  | nil
  | function (ref : Ref .functions)
  | builtin (which : Builtin)
  | classRef (ref : Ref .classes)
  | array (ref : Ref .arrays)
  | instanceRef (ref : Ref .instances)
  deriving DecidableEq, Repr, Inhabited

namespace Value

/-- The type of a value. -/
def type : Value → ValueType
  | number _ => .number
  | string _ => .string
  | boolean _ => .boolean
  | nil => .nil
  | function _ => .function
  | builtin _ => .function
  | classRef _ => .classType
  | array _ => .array
  | instanceRef _ => .instanceType

/-- Everything holds but `falso` and `nulo`. -/
def truthy : Value → Bool
  | nil => false
  | boolean false => false
  | _ => true

/-- Whether a number equals a text: the text without blanks around it is read as a number, and only
a text that is none is compared with how the number is written. -/
def numberEqualsText (x : Float) (s : String) : Bool :=
  match Decimal.readTrimmed? s with
  | some y => x == y
  | none => Decimal.display x = s

/-- Loose equality. -/
def looseEq : Value → Value → Bool
  | number x, number y => x == y
  | string s, string t => s = t
  | number x, string s => numberEqualsText x s
  | string s, number x => numberEqualsText x s
  | boolean b, v => b = v.truthy
  | v, boolean b => b = v.truthy
  | nil, nil => true
  | function f, function g => f = g
  | builtin b, builtin c => b = c
  | classRef c, classRef d => c = d
  | array a, array b => a = b
  | instanceRef i, instanceRef j => i = j
  | _, _ => false

/-- The key of an array entry that a value stands for. -/
def key? : Value → Option String
  | number x => some (Decimal.display x)
  | string s => some s
  | _ => none

end Value

end Roteiro
