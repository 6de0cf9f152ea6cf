import Roteiro.Parser.Rules

/-!
# Programs and expressions from tokens

`Parser.program` reads all tokens up to the end marker, `Parser.expression` one expression at their
front. Either gives a tree only if there was nothing to complain about; the numbers for name
occurrences move on in any case.
-/

namespace Roteiro

namespace Parser

/-- What became of some tokens. -/
structure Parsed (α : Type) where
  /-- The tree, unless there are complaints. -/
  tree? : Option α
  /-- The first number that no occurrence has had yet. -/
  nextId : Nat
  /-- The complaints, in the order in which they were found. -/
  reports : List Report

/-- Enough fuel to read so many tokens. -/
def fuelFor (tokens : List Token) : Nat := 32 * (tokens.length + 1)

/-- The tree a rule gives at the front of the tokens. -/
def runRule {α : Type} (rule : Nat → Rule α) (tokens : List Token) (firstId : Nat) : Parsed α :=
  match rule (fuelFor tokens) (State.ofTokens tokens firstId) with
  | .ok tree s => ⟨if s.reports.isEmpty then some tree else none, s.nextId, s.reports.toList⟩
  | .error (.fault r) s => ⟨none, s.nextId, (s.report r).reports.toList⟩
  | .error .outOfFuel s => ⟨none, s.nextId, s.reports.toList⟩

/-- The program that the tokens spell. -/
def parseProgram (tokens : List Token) (firstId : Nat) : Parsed (List Stmt) :=
  runRule (fun fuel => declarations fuel false) tokens firstId

/-- The expression at the front of the tokens. -/
def parseExpression (tokens : List Token) (firstId : Nat) : Parsed Expr :=
  runRule expression tokens firstId

end Parser

end Roteiro
