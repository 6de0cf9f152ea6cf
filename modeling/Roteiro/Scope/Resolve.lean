import Roteiro.Scope.Basic

/-!
# Matching names with declarations

The analysis walks the tree once, in the order of the source, and never stops at a complaint. Its
state flows through: each function below takes the analysis before a piece of the tree to the
analysis after it.

The step of a loop is looked at in a scope of its own, outside of the loop: that is where it is
run after `continue`, and that scope has the same place in the stack as the block that holds the
other copy of the step.
-/

namespace Roteiro

namespace Scope

/-- The kind of body that a method has. -/
def methodBody (f : FunctionDecl) : Body :=
  if f.displayName = initializerName then .initializer else .method

mutual

/-- The analysis behind an expression. -/
def resolveExpr : Expr → Analysis → Analysis
  | .literal _, a => a
  | .unary _ operand, a => resolveExpr operand a
  | .binary left _ right, a => resolveExpr right (resolveExpr left a)
  | .group inner, a => resolveExpr inner a
  | .logical left _ right, a => resolveExpr right (resolveExpr left a)
  | .conditional test yes no, a => resolveExpr no (resolveExpr yes (resolveExpr test a))
  | .var id name, a =>
    let a := if a.inOwnInitializer name.lexeme then a.complain name .ownInitializer else a
    a.record id name.lexeme
  | .assign id name value, a => (resolveExpr value a).record id name.lexeme
  | .call callee _ arguments, a => resolveExprs arguments (resolveExpr callee a)
  | .lambda decl, a => resolveFunction decl .function a
  | .array _ elements, a => resolveExprs elements a
  | .index _ base key, a => resolveExpr key (resolveExpr base a)
  | .indexSet _ base key value, a => resolveExpr value (resolveExpr key (resolveExpr base a))
  | .get object _, a => resolveExpr object a
  | .set object _ value, a => resolveExpr value (resolveExpr object a)
  | .self id keyword, a =>
    if a.inClass then a.record id selfName else a.complain keyword .selfOutsideClass

/-- The analysis behind several expressions. -/
def resolveExprs : List Expr → Analysis → Analysis
  | [], a => a
  | e :: es, a => resolveExprs es (resolveExpr e a)

/-- The analysis behind a statement. -/
def resolveStmt : Stmt → Analysis → Analysis
  | .expression expr, a => resolveExpr expr a
  | .print expr, a => resolveExpr expr a
  | .var name none, a => a.introduce name
  | .var name (some value), a => (resolveExpr value (a.declare name)).define name
  | .block body, a => (resolveStmts body (a.openScope [])).closeScope
  | .ifElse test yes none, a => resolveStmt yes (resolveExpr test a)
  | .ifElse test yes (some no), a => resolveStmt no (resolveStmt yes (resolveExpr test a))
  | .loop test body none, a => (resolveStmt body (resolveExpr test a).enterLoop).leaveLoop
  | .loop test body (some step), a =>
    let a := (resolveStmt body (resolveExpr test a).enterLoop).leaveLoop
    (resolveStmt step (a.openScope [])).closeScope
  | .exitLoop keyword, a => a.requireLoop keyword .breakOutsideLoop
  | .nextIteration keyword, a => a.requireLoop keyword .continueOutsideLoop
  | .function decl, a =>
    let a :=
      match decl.name? with
      | some name => a.introduce name
      | none => a
    resolveFunction decl .function a
  | .result keyword value?, a =>
    let a := if a.body = .program then a.complain keyword .topLevelReturn else a
    match value? with
    | none => a
    | some value =>
      let a := if a.body = .initializer then a.complain keyword .initializerReturn else a
      resolveExpr value a
  | .classDecl name methods, a =>
    let inside := ({ a with inClass := true }.introduce name).openScope [(selfName, .defined)]
    { (resolveMethods methods inside).closeScope with inClass := a.inClass }

/-- The analysis behind several statements. -/
def resolveStmts : List Stmt → Analysis → Analysis
  | [], a => a
  | s :: ss, a => resolveStmts ss (resolveStmt s a)

/-- The analysis behind a function, whose parameters and body share one scope. -/
def resolveFunction : FunctionDecl → Body → Analysis → Analysis
  | ⟨_, params, statements⟩, body, a =>
    let inside := params.foldl Analysis.introduce (a.enterFunction body)
    (resolveStmts statements inside).leaveFunction a

/-- The analysis behind the methods of a class. -/
def resolveMethods : List FunctionDecl → Analysis → Analysis
  | [], a => a
  | f :: fs, a => resolveMethods fs (resolveFunction f (methodBody f) a)

end

/-- The analysis of a whole program. -/
def resolve (program : List Stmt) (depths : Depths) : Analysis :=
  resolveStmts program (.start depths)

/-- Whether there was nothing to complain about. -/
def Analysis.accepted (a : Analysis) : Bool := a.reports.isEmpty

end Scope

end Roteiro
