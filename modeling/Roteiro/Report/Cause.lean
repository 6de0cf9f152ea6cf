/-!
# Causes of static reports

Everything that can be wrong with a program before it runs, each cause with its one wording.
-/

namespace Roteiro

/-- What is wrong with a program text. -/
inductive Cause where
  /-- A character that starts no token. -/
  | unexpectedCharacter (c : Char)
  /-- A text whose closing quote is missing. -/
  | unterminatedString
  | expectedClassName
  | expectedClassOpen
  | expectedMethodName
  | expectedClassClose
  | expectedFunctionName
  | expectedParametersOpen
  | expectedParametersClose
  | expectedParameterName
  | expectedFunctionOpen
  | expectedVariableName
  | expectedVariableEnd
  | expectedPrintEnd
  | expectedExpressionEnd
  | expectedReturnEnd
  | expectedExitEnd
  | expectedIfOpen
  | expectedWhileOpen
  | expectedForOpen
  | expectedConditionClose
  | expectedLoopConditionEnd
  | expectedForClose
  | expectedBlockClose
  | expectedArrow
  | expectedFalseCase
  | expectedPropertyName
  | expectedIndexClose
  | expectedArgumentsClose
  | expectedArrayClose
  | expectedGroupClose
  | expectedExpression
  /-- What stands before `=` can not be assigned to. -/
  | expectedTarget
  /-- A parameter beyond the two hundred and fifty-fifth. -/
  | tooManyParameters
  /-- An argument beyond the two hundred and fifty-fifth. -/
  | tooManyArguments
  | breakOutsideLoop
  | continueOutsideLoop
  /-- A second declaration of a name in one local scope. -/
  | alreadyDeclared
  /-- A local variable read in its own initializer. -/
  | ownInitializer
  | topLevelReturn
  | initializerReturn
  | selfOutsideClass
  /-- A complaint of the host, in its own words. -/
  | custom (text : String)
  deriving DecidableEq, Repr

/-- The wording of a cause. -/
def Cause.message : Cause → String
  | unexpectedCharacter c => s!"Unexpected character: {c}"
  | unterminatedString => "Unterminated string."
  | expectedClassName => "Expected class name."
  | expectedClassOpen => "Expected '\x7b' before class body."
  | expectedMethodName => "Expected method name."
  | expectedClassClose => "Expected '\x7d' after class body."
  | expectedFunctionName => "Expected function name."
  | expectedParametersOpen => "Expected '(' after function name."
  | expectedParametersClose => "Expected ')' after parameters."
  | expectedParameterName => "Expected parameter name."
  | expectedFunctionOpen => "Expected '\x7b' before function body."
  | expectedVariableName => "Expected variable name."
  | expectedVariableEnd => "Expected ';' after variable declaration."
  | expectedPrintEnd => "Expected ';' after value."
  | expectedExpressionEnd => "Expected ';' after expression."
  | expectedReturnEnd => "Expected ';' after return value."
  | expectedExitEnd => "Expected ';' after loop exit."
  | expectedIfOpen => "Expected '(' after 'se'."
  | expectedWhileOpen => "Expected '(' after 'enquanto'."
  | expectedForOpen => "Expected '(' after 'repita'."
  | expectedConditionClose => "Expected ')' after condition."
  | expectedLoopConditionEnd => "Expected ';' after loop condition."
  | expectedForClose => "Expected ')' after 'repita' clauses."
  | expectedBlockClose => "Expected '\x7d' after block."
  | expectedArrow => "Expected '=>' after parameters."
  | expectedFalseCase => "Expected ':' and the expression for the false case."
  | expectedPropertyName => "Expected property name after '.'."
  | expectedIndexClose => "Expected ']' after index."
  | expectedArgumentsClose => "Expected ')' after arguments."
  | expectedArrayClose => "Expected ']' after array elements."
  | expectedGroupClose => "Expected ')' after expression."
  | expectedExpression => "Expected expression."
  | expectedTarget => "Expected a variable before '='."
  | tooManyParameters => "Can't have more than 255 parameters."
  | tooManyArguments => "Can't have more than 255 arguments."
  | breakOutsideLoop => "'pare' is only allowed inside a loop."
  | continueOutsideLoop => "'continue' is only allowed inside a loop."
  | alreadyDeclared => "Already a variable with this name in this scope."
  | ownInitializer => "Can't read local variable in its own initializer."
  | topLevelReturn => "Can't return from top-level code."
  | initializerReturn => "Can't return a value from an initializer."
  | selfOutsideClass => "Can't use 'meu' outside of a class."
  | custom text => text

end Roteiro
