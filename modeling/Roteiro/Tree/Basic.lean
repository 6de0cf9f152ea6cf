import Roteiro.Decimal.Reader
import Roteiro.Token.Basic

/-!
# Syntax trees

A program is a list of statements. Tokens stay in the tree where a later complaint may have to
point at them. Every occurrence of a name (a read, an assignment, the receiver) carries a number
of its own, under which the scope analysis records what it found; two occurrences of one name in
different places have different numbers.

A counted loop has no node of its own: `Stmt.countedLoop` builds it from a block and a loop. The
loop keeps a second copy of the step, which is run when an iteration is cut short.
-/

namespace Roteiro

/-- A constant in the source. -/
inductive Literal where
  | number (value : Float)
  | string (text : String)
  | boolean (value : Bool)
  | nil
  deriving DecidableEq, Repr, Inhabited

mutual

/-- An expression. -/
inductive Expr where
  | literal (value : Literal)
  /-- `! operand` or `- operand`. -/
  | unary (operator : Token) (operand : Expr)
  /-- Arithmetic, comparison or equality. -/
  | binary (left : Expr) (operator : Token) (right : Expr)
  /-- An expression in parentheses. -/
  | group (inner : Expr)
  /-- `E` or `OU`, which may leave their right side alone. -/
  | logical (left : Expr) (operator : Token) (right : Expr)
  /-- `test ? yes : no`. -/
  | conditional (test yes no : Expr)
  /-- A name that is read. -/
  | var (id : Nat) (name : Token)
  | assign (id : Nat) (name : Token) (value : Expr)
  /-- A call, with its closing parenthesis. -/
  | call (callee : Expr) (paren : Token) (arguments : List Expr)
  | lambda (decl : FunctionDecl)
  | array (bracket : Token) (elements : List Expr)
  | index (bracket : Token) (base key : Expr)
  | indexSet (bracket : Token) (base key value : Expr)
  /-- `object.name`. -/
  | get (object : Expr) (name : Token)
  | set (object : Expr) (name : Token) (value : Expr)
  /-- The receiver of the method around. -/
  | self (id : Nat) (keyword : Token)

/-- A statement. -/
inductive Stmt where
  | expression (expr : Expr)
  | print (expr : Expr)
  | var (name : Token) (initializer : Option Expr)
  | block (body : List Stmt)
  | ifElse (test : Expr) (yes : Stmt) (no : Option Stmt)
  /-- `step` is run after an iteration that ended with `continue`. -/
  | loop (test : Expr) (body : Stmt) (step : Option Stmt)
  | exitLoop (keyword : Token)
  | nextIteration (keyword : Token)
  | function (decl : FunctionDecl)
  | result (keyword : Token) (value : Option Expr)
  | classDecl (name : Token) (methods : List FunctionDecl)

/-- A function, method or lambda. Only a lambda has no name. -/
structure FunctionDecl where
  name? : Option Token
  params : List Token
  body : List Stmt

end

instance : Inhabited Expr := ⟨.literal .nil⟩

instance : Inhabited Stmt := ⟨.block []⟩

instance : Inhabited FunctionDecl := ⟨none, [], []⟩

namespace FunctionDecl

/-- The name under which a function is shown. -/
def displayName (f : FunctionDecl) : String := (f.name?.map Token.lexeme).getD "lambda"

/-- How many arguments a function takes. -/
def arity (f : FunctionDecl) : Nat := f.params.length

end FunctionDecl

/-- What assigning a value to a target means, if it can be assigned to: a name, a property or an
array entry. -/
def Expr.assigned? (target value : Expr) : Option Expr :=
  match target with
  | .var id name => some (.assign id name value)
  | .get object name => some (.set object name value)
  | .index bracket base key => some (.indexSet bracket base key value)
  | _ => none

/-- Whether an expression is a lambda. -/
def Expr.isLambda : Expr → Bool
  | .lambda _ => true
  | _ => false

/-- The step `name = name ± 1`, with the numbers of the read and of the assignment. -/
def Expr.step (readId assignId : Nat) (name operator : Token) : Expr :=
  .assign assignId name
    (.binary (.var readId name) operator (.literal (.number (Decimal.nearest 1 0))))

/-- The counted loop: `start` runs once, in a scope of its own; as long as `test` holds the body is
run, and after it `step`. A missing test holds always. -/
def Stmt.countedLoop (start : Option Stmt) (test step : Option Expr) (body : Stmt) : Stmt :=
  let body :=
    match step with
    | some e => .block [body, .expression e]
    | none => body
  let loop := Stmt.loop (test.getD (.literal (.boolean true))) body (step.map .expression)
  match start with
  | some s => .block [s, loop]
  | none => loop

end Roteiro
