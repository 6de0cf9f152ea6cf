import Roteiro.Tree.Basic

/-!
# Trees as text

A tree is printed in parentheses with its head in front, so that `1 + 2 * 3` becomes
`(+ 1 (* 2 3))`. Names and constants stand for themselves. The step of a loop is left out: a
counted loop prints it as the end of the body.
-/

namespace Roteiro

/-- A head and its parts in parentheses, with single blanks between them. -/
def inParens (head : String) (parts : List String) : String :=
  "(" ++ " ".intercalate (head :: parts) ++ ")"

/-- The text of a constant. -/
def Literal.text : Literal → String
  | number value => Decimal.display value
  | string s => s
  | boolean true => "verdadeiro"
  | boolean false => "falso"
  | nil => "nulo"

/-- The head of a function: its kind, its name if it has one, and its parameters. -/
def FunctionDecl.header (kind : String) (f : FunctionDecl) : String :=
  let params := "(" ++ " ".intercalate (f.params.map Token.lexeme) ++ ")"
  match f.name? with
  | some name => s!"{kind} {name.lexeme} {params}"
  | none => s!"{kind} {params}"

mutual

/-- The text of an expression. -/
def Expr.text : Expr → String
  | .literal value => value.text
  | .unary operator operand => inParens operator.lexeme [operand.text]
  | .binary left operator right => inParens operator.lexeme [left.text, right.text]
  | .group inner => inParens "group" [inner.text]
  | .logical left operator right => inParens operator.lexeme [left.text, right.text]
  | .conditional test yes no => inParens "?:" [test.text, yes.text, no.text]
  | .var _ name => name.lexeme
  | .assign _ name value => inParens "=" [name.lexeme, value.text]
  | .call callee _ arguments => inParens "call" (callee.text :: Expr.texts arguments)
  | .lambda decl => decl.text "lambda"
  | .array _ elements => inParens "array" (Expr.texts elements)
  | .index _ base key => inParens "index" [base.text, key.text]
  | .indexSet _ base key value => inParens "index=" [base.text, key.text, value.text]
  | .get object name => inParens "." [object.text, name.lexeme]
  | .set object name value => inParens ".=" [object.text, name.lexeme, value.text]
  | .self _ keyword => keyword.lexeme

/-- The texts of several expressions. -/
def Expr.texts : List Expr → List String
  | [] => []
  | e :: es => e.text :: Expr.texts es

/-- The text of a statement. -/
def Stmt.text : Stmt → String
  | .expression expr => inParens ";" [expr.text]
  | .print expr => inParens "escreva" [expr.text]
  | .var name none => inParens "var" [name.lexeme]
  | .var name (some expr) => inParens "var" [name.lexeme, expr.text]
  | .block body => inParens "block" (Stmt.texts body)
  | .ifElse test yes none => inParens "se" [test.text, yes.text]
  | .ifElse test yes (some no) => inParens "se" [test.text, yes.text, no.text]
  | .loop test body _ => inParens "enquanto" [test.text, body.text]
  | .exitLoop _ => "(pare)"
  | .nextIteration _ => "(continue)"
  | .function decl => decl.text "funcao"
  | .result _ none => "(retorne)"
  | .result _ (some expr) => inParens "retorne" [expr.text]
  | .classDecl name methods =>
    inParens "classe" (name.lexeme :: FunctionDecl.texts "metodo" methods)

/-- The texts of several statements. -/
def Stmt.texts : List Stmt → List String
  | [] => []
  | s :: ss => s.text :: Stmt.texts ss

/-- The text of a function of the given kind. -/
def FunctionDecl.text (kind : String) : FunctionDecl → String
  | ⟨name?, params, body⟩ =>
    inParens (FunctionDecl.header kind ⟨name?, params, []⟩) (Stmt.texts body)

/-- The texts of several functions of one kind. -/
def FunctionDecl.texts (kind : String) : List FunctionDecl → List String
  | [] => []
  | f :: fs => f.text kind :: FunctionDecl.texts kind fs

end

end Roteiro
