import Roteiro.Tree.Basic

/-!
# The tokens of a tree

`renderStmts` writes a program back as tokens, in one fixed form: every node in its surface syntax,
parentheses only where the tree has them, a semicolon behind every statement that takes one. A
counting step is an assignment in the tree and is written as one. A loop that keeps a step is written
as the counted loop it came from, without a start; the start of a counted loop is a statement of the
block around the loop.

Tokens that stand in the tree are written as they are. The others are made up, on line 1.

`renameStmts ρ` gives every occurrence of a name the number that `ρ` has for it, and leaves the rest
of the tree alone.
-/

namespace Roteiro

/-- A token that is not in the tree. -/
def Token.plain (kind : Kind) (lexeme : String) : Token := ⟨kind, lexeme, 1⟩

/-- The token of a constant. -/
def Literal.token : Literal → Token
  | .number value => .plain (.number value) (Decimal.literal value)
  | .string text => .plain (.string text) ("\"" ++ text ++ "\"")
  | .boolean true => .plain .trueKw "verdadeiro"
  | .boolean false => .plain .falseKw "falso"
  | .nil => .plain .nullKw "nulo"

/-- Names with commas between them. -/
def renderNames : List Token → List Token
  | [] => []
  | [name] => [name]
  | name :: names => name :: .plain .comma "," :: renderNames names

mutual

/-- The tokens of an expression. -/
def Expr.render : Expr → List Token
  | .literal value => [value.token]
  | .unary operator operand => operator :: operand.render
  | .binary left operator right => left.render ++ operator :: right.render
  | .group inner => .plain .leftParen "(" :: (inner.render ++ [.plain .rightParen ")"])
  | .logical left operator right => left.render ++ operator :: right.render
  | .conditional test yes no =>
    test.render ++ .plain .question "?" :: (yes.render ++ .plain .colon ":" :: no.render)
  | .var _ name => [name]
  | .assign _ name value => name :: .plain .equal "=" :: value.render
  | .call callee paren arguments =>
    callee.render ++ .plain .leftParen "(" :: (renderExprs arguments ++ [paren])
  | .lambda ⟨_, params, body⟩ =>
    .plain .leftParen "(" :: (renderNames params ++ .plain .rightParen ")" :: renderLambdaBody body)
  | .array bracket elements => bracket :: (renderExprs elements ++ [.plain .rightBracket "]"])
  | .index bracket base key => base.render ++ bracket :: (key.render ++ [.plain .rightBracket "]"])
  | .indexSet bracket base key value =>
    base.render ++ bracket :: (key.render ++ .plain .rightBracket "]" :: .plain .equal "=" ::
      value.render)
  | .get object name => object.render ++ [.plain .dot ".", name]
  | .set object name value =>
    object.render ++ .plain .dot "." :: name :: .plain .equal "=" :: value.render
  | .self _ keyword => [keyword]

/-- Expressions with commas between them. -/
def renderExprs : List Expr → List Token
  | [] => []
  | e :: es => e.render ++ renderMoreExprs es

/-- Expressions with a comma in front of each. -/
def renderMoreExprs : List Expr → List Token
  | [] => []
  | e :: es => .plain .comma "," :: (e.render ++ renderMoreExprs es)

/-- The arrow of a lambda and what stands behind it. A result that is marked with the arrow was an
expression there. -/
def renderLambdaBody : List Stmt → List Token
  | [] => [.plain .arrow "=>", .plain .leftBrace "\x7b", .plain .rightBrace "\x7d"]
  | [.result keyword (some value)] =>
    if keyword.kind = .arrow then keyword :: value.render
    else .plain .arrow "=>" :: .plain .leftBrace "\x7b" ::
      (keyword :: (value.render ++ [.plain .semicolon ";"]) ++ [.plain .rightBrace "\x7d"])
  | s :: ss => .plain .arrow "=>" :: .plain .leftBrace "\x7b" ::
      (s.render ++ renderStmts ss ++ [.plain .rightBrace "\x7d"])

/-- The tokens of a statement. -/
def Stmt.render : Stmt → List Token
  | .expression expr => expr.render ++ [.plain .semicolon ";"]
  | .print expr => .plain .printKw "escreva" :: (expr.render ++ [.plain .semicolon ";"])
  | .var name none => [.plain .varKw "var", name, .plain .semicolon ";"]
  | .var name (some value) =>
    .plain .varKw "var" :: name :: .plain .equal "=" :: (value.render ++ [.plain .semicolon ";"])
  | .block body => .plain .leftBrace "\x7b" :: (renderStmts body ++ [.plain .rightBrace "\x7d"])
  | .ifElse test yes none =>
    .plain .ifKw "se" :: .plain .leftParen "(" ::
      (test.render ++ .plain .rightParen ")" :: yes.render)
  | .ifElse test yes (some no) =>
    .plain .ifKw "se" :: .plain .leftParen "(" ::
      (test.render ++ .plain .rightParen ")" :: (yes.render ++ .plain .elseKw "senao" :: no.render))
  | .loop test body none =>
    .plain .whileKw "enquanto" :: .plain .leftParen "(" ::
      (test.render ++ .plain .rightParen ")" :: body.render)
  | .loop test (.block [body, .expression step]) (some _) =>
    .plain .forKw "repita" :: .plain .leftParen "(" :: .plain .semicolon ";" ::
      (test.render ++ .plain .semicolon ";" :: (step.render ++ .plain .rightParen ")" ::
        body.render))
  | .loop test body (some _) =>
    .plain .forKw "repita" :: .plain .leftParen "(" :: .plain .semicolon ";" ::
      (test.render ++ .plain .semicolon ";" :: .plain .rightParen ")" :: body.render)
  | .exitLoop keyword => [keyword, .plain .semicolon ";"]
  | .nextIteration keyword => [keyword, .plain .semicolon ";"]
  | .function decl => .plain .functionKw "funcao" :: (decl.name?.toList ++ decl.render)
  | .result keyword none => [keyword, .plain .semicolon ";"]
  | .result keyword (some value) => keyword :: (value.render ++ [.plain .semicolon ";"])
  | .classDecl name methods =>
    .plain .classKw "classe" :: name :: .plain .leftBrace "\x7b" ::
      (renderFunctions methods ++ [.plain .rightBrace "\x7d"])

/-- The tokens of several statements. -/
def renderStmts : List Stmt → List Token
  | [] => []
  | s :: ss => s.render ++ renderStmts ss

/-- The tokens of a function, behind its name. -/
def FunctionDecl.render : FunctionDecl → List Token
  | ⟨_, params, body⟩ =>
    .plain .leftParen "(" :: (renderNames params ++ .plain .rightParen ")" ::
      .plain .leftBrace "\x7b" :: (renderStmts body ++ [.plain .rightBrace "\x7d"]))

/-- The tokens of several functions, each behind its name. -/
def renderFunctions : List FunctionDecl → List Token
  | [] => []
  | f :: fs => f.name?.toList ++ (f.render ++ renderFunctions fs)

end

mutual

/-- An expression with other numbers. -/
def Expr.rename (ρ : Nat → Nat) : Expr → Expr
  | .literal value => .literal value
  | .unary operator operand => .unary operator (operand.rename ρ)
  | .binary left operator right => .binary (left.rename ρ) operator (right.rename ρ)
  | .group inner => .group (inner.rename ρ)
  | .logical left operator right => .logical (left.rename ρ) operator (right.rename ρ)
  | .conditional test yes no => .conditional (test.rename ρ) (yes.rename ρ) (no.rename ρ)
  | .var id name => .var (ρ id) name
  | .assign id name value => .assign (ρ id) name (value.rename ρ)
  | .call callee paren arguments => .call (callee.rename ρ) paren (renameExprs ρ arguments)
  | .lambda decl => .lambda (decl.rename ρ)
  | .array bracket elements => .array bracket (renameExprs ρ elements)
  | .index bracket base key => .index bracket (base.rename ρ) (key.rename ρ)
  | .indexSet bracket base key value =>
    .indexSet bracket (base.rename ρ) (key.rename ρ) (value.rename ρ)
  | .get object name => .get (object.rename ρ) name
  | .set object name value => .set (object.rename ρ) name (value.rename ρ)
  | .self id keyword => .self (ρ id) keyword

/-- Expressions with other numbers. -/
def renameExprs (ρ : Nat → Nat) : List Expr → List Expr
  | [] => []
  | e :: es => e.rename ρ :: renameExprs ρ es

/-- A statement with other numbers. -/
def Stmt.rename (ρ : Nat → Nat) : Stmt → Stmt
  | .expression expr => .expression (expr.rename ρ)
  | .print expr => .print (expr.rename ρ)
  | .var name none => .var name none
  | .var name (some value) => .var name (some (value.rename ρ))
  | .block body => .block (renameStmts ρ body)
  | .ifElse test yes none => .ifElse (test.rename ρ) (yes.rename ρ) none
  | .ifElse test yes (some no) => .ifElse (test.rename ρ) (yes.rename ρ) (some (no.rename ρ))
  | .loop test body none => .loop (test.rename ρ) (body.rename ρ) none
  | .loop test body (some step) => .loop (test.rename ρ) (body.rename ρ) (some (step.rename ρ))
  | .exitLoop keyword => .exitLoop keyword
  | .nextIteration keyword => .nextIteration keyword
  | .function decl => .function (decl.rename ρ)
  | .result keyword none => .result keyword none
  | .result keyword (some value) => .result keyword (some (value.rename ρ))
  | .classDecl name methods => .classDecl name (renameFunctions ρ methods)

/-- Statements with other numbers. -/
def renameStmts (ρ : Nat → Nat) : List Stmt → List Stmt
  | [] => []
  | s :: ss => s.rename ρ :: renameStmts ρ ss

/-- A function with other numbers. -/
def FunctionDecl.rename (ρ : Nat → Nat) : FunctionDecl → FunctionDecl
  | ⟨name?, params, body⟩ => ⟨name?, params, renameStmts ρ body⟩

/-- Functions with other numbers. -/
def renameFunctions (ρ : Nat → Nat) : List FunctionDecl → List FunctionDecl
  | [] => []
  | f :: fs => f.rename ρ :: renameFunctions ρ fs

end

attribute [simp] Expr.render Stmt.render renderStmts FunctionDecl.render renderFunctions Expr.rename
  renameExprs Stmt.rename renameStmts FunctionDecl.rename renameFunctions

theorem renderNames_cons {name : Token} {names : List Token} (h : names ≠ []) :
    renderNames (name :: names) = name :: .plain .comma "," :: renderNames names := by
  cases names with
  | nil => exact absurd rfl h
  | cons => rfl

theorem renderExprs_cons {e : Expr} {es : List Expr} (h : es ≠ []) :
    renderExprs (e :: es) = e.render ++ .plain .comma "," :: renderExprs es := by
  cases es with
  | nil => exact absurd rfl h
  | cons => rfl

/-- An expression behind the arrow. -/
theorem renderLambdaBody_value {arrow : Token} (h : arrow.kind = .arrow) (value : Expr) :
    renderLambdaBody [.result arrow (some value)] = arrow :: value.render := by
  simp only [renderLambdaBody, if_pos h]

/-- A block behind the arrow: no result in it is marked with the arrow. -/
theorem renderLambdaBody_block {body : List Stmt}
    (h : ∀ keyword value?, .result keyword value? ∈ body → keyword.kind ≠ .arrow) :
    renderLambdaBody body = .plain .arrow "=>" :: .plain .leftBrace "\x7b" ::
      (renderStmts body ++ [.plain .rightBrace "\x7d"]) := by
  unfold renderLambdaBody
  split
  · rfl
  · next keyword value =>
    rw [if_neg (h keyword (some value) (List.mem_singleton_self _))]
    simp
  · rfl

/-- The start of a counted loop stands in a block around it. -/
theorem render_countedLoop_start (start : Stmt) (test step : Option Expr) (body : Stmt) :
    (Stmt.countedLoop (some start) test step body).render = .plain .leftBrace "\x7b" ::
      (start.render ++ (Stmt.countedLoop none test step body).render ++
        [.plain .rightBrace "\x7d"]) := by
  simp [Stmt.countedLoop]

end Roteiro
