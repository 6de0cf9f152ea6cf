import Roteiro.Report.Cause
import Roteiro.Report.Failure
import Roteiro.Text.Utf8

/-!
# Reports

A report is one complaint about a program: which stage makes it, where, and why. Complaints about
a token quote it, and the end of the tokens is called the end.
-/

namespace Roteiro

/-- A complaint about a program or its text. -/
inductive Report where
  /-- The characters are not tokens. -/
  | lexical (line : Nat) (cause : Cause)
  /-- The tokens are not statements. -/
  | parse (token : Token) (cause : Cause)
  /-- The statements break a rule of scoping. -/
  | resolve (token : Token) (cause : Cause)
  /-- The run stopped. -/
  | runtime (error : RuntimeError)
  /-- The surroundings could not be read. -/
  | io (message : String)
  /-- The bytes are not text. -/
  | utf8 (fault : Text.Utf8.Fault)
  deriving DecidableEq, Repr

namespace Report

/-- The line a report points at, if it has one. -/
def line? : Report → Option Nat
  | lexical line _ => some line
  | parse token _ => some token.line
  | resolve token _ => some token.line
  | runtime error => some error.token.line
  | io _ => none
  | utf8 _ => none

/-- What a report says, without the place. -/
def message : Report → String
  | lexical _ cause => cause.message
  | parse _ cause => cause.message
  | resolve _ cause => cause.message
  | runtime error => error.failure.message
  | io message => message
  | utf8 fault => fault.message

/-- The place of a token in words. -/
def placeOf (t : Token) : String :=
  if t.kind = .endOfInput then " at end" else s!" at '{t.lexeme}'"

/-- The text of a complaint about a token. -/
def locatedText (t : Token) (cause : Cause) : String :=
  s!"[line {t.line}] Error{placeOf t}: {cause.message}"

/-- The text of a report. -/
def text : Report → String
  | lexical line cause => s!"[line {line}] Error: {cause.message}"
  | parse token cause => locatedText token cause
  | resolve token cause => locatedText token cause
  | runtime error => error.text
  | io message => message
  | utf8 fault => fault.message

end Report

end Roteiro
