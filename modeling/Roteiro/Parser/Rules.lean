import Roteiro.Parser.State

/-!
# The rules of the grammar

```text
program      → declaration* END
declaration  → "classe" NAME "{" ( "funcao"? NAME parameters block )* "}"
             | "funcao" NAME parameters block
             | "var" NAME ( "=" expression )? ";"
             | statement
statement    → "escreva" expression ";" | "se" "(" expression ")" statement ( "senao" statement )?
             | block | "enquanto" "(" expression ")" statement
             | "repita" "(" ( variable | expression ";" | ";" ) expression? ";" expression? ")"
                 statement
             | "pare" ";" | "continue" ";" | "retorne" expression? ";" | expression ";"
block        → "{" declaration* "}"
expression   → NAME ( "++" | "--" ) ";"? | parameters "=>" ( block | expression ) | assignment
assignment   → conditional ( "=" assignment )?
conditional  → level ( "?" expression ":" conditional )?
level        → tighter ( operator tighter )*
unary        → ( "!" | "-" ) unary | call
call         → primary ( "(" arguments ")" | "." NAME | "[" expression "]" )*
```

The rules call each other in circles. Each call costs one unit of fuel; a rule that calls another
one without reading a token first calls a rule further down this list, so a fixed amount of fuel
per token is enough.
-/

namespace Roteiro

namespace Parser

/-- The levels of operators with two operands, from loose to tight. -/
inductive Level where
  | disjunction
  | conjunction
  | equality
  | comparison
  | sum
  | product
  deriving DecidableEq, Repr

namespace Level

/-- The operators of a level. -/
def operators : Level → Kind → Bool
  | disjunction, k => k = .orKw
  | conjunction, k => k = .andKw
  | equality, k => k = .bangEqual || k = .equalEqual
  | comparison, k => k = .greater || k = .greaterEqual || k = .less || k = .lessEqual
  | sum, k => k = .minus || k = .plus
  | product, k => k = .star || k = .slash || k = .percent

/-- The level of the operands, if they are not unary. -/
def tighter? : Level → Option Level
  | disjunction => some conjunction
  | conjunction => some equality
  | equality => some comparison
  | comparison => some sum
  | sum => some product
  | product => none

/-- The tree of an operator and its operands. -/
def join (l : Level) (left : Expr) (operator : Token) (right : Expr) : Expr :=
  match l with
  | disjunction => .logical left operator right
  | conjunction => .logical left operator right
  | _ => .binary left operator right

end Level

/-- The most parameters a function has, and the most arguments a call has. -/
def maxArguments : Nat := 255

/-- Parameter names with commas between them. `count` have been read before. -/
def parameterList : Nat → Nat → Rule (List Token)
  | 0, _ => throw .outOfFuel
  | fuel + 1, count => do
    if maxArguments ≤ count then complainNext .tooManyParameters
    let name ← expect .identifier .expectedParameterName
    if ← accept .comma then
      let names ← parameterList fuel (count + 1)
      return name :: names
    else return [name]

/-- The names between the parentheses of a parameter list. -/
def parameters (fuel : Nat) : Rule (List Token) := do
  if ← check .rightParen then return [] else parameterList fuel 0

/-- `name ++` or `name --`, with the semicolon that may follow. -/
def countingStep : Rule Expr := do
  let name ← takeToken
  let step ← takeToken
  let _ ← accept .semicolon
  let operator : Token :=
    if step.kind = .plusPlus then ⟨.plus, "+", step.line⟩ else ⟨.minus, "-", step.line⟩
  let readId ← freshId
  let assignId ← freshId
  return .step readId assignId name operator

/-- Whether a name and `++` or `--` are read next. -/
def State.startsStep (s : State) : Bool :=
  match s.rest with
  | name :: step :: _ =>
    name.kind = .identifier && (step.kind = .plusPlus || step.kind = .minusMinus)
  | _ => false

/-- `pare` or `continue`, of which the keyword has been read. -/
def loopExit (keyword : Token) (cause : Cause) (build : Token → Stmt) : Rule Stmt := do
  let s ← get
  if s.loops = 0 then complain keyword cause
  let _ ← expect .semicolon .expectedExitEnd
  return build keyword

mutual

/-- Declarations up to the end, or up to a closing brace if they stand in a block. -/
def declarations : Nat → Bool → Rule (List Stmt)
  | 0, _ => throw .outOfFuel
  | fuel + 1, inBlock => do
    if (← atEnd) then return []
    else if inBlock && (← check .rightBrace) then return []
    else
      let first ← recover (declaration fuel)
      let others ← declarations fuel inBlock
      return first.toList ++ others

/-- One declaration or statement. -/
def declaration : Nat → Rule Stmt
  | 0 => throw .outOfFuel
  | fuel + 1 => do
    match ← peekKind with
    | .classKw =>
      let _ ← takeToken
      let name ← expect .identifier .expectedClassName
      let _ ← expect .leftBrace .expectedClassOpen
      let methods ← methodList fuel
      let _ ← expect .rightBrace .expectedClassClose
      return .classDecl name methods
    | .functionKw =>
      let _ ← takeToken
      let name ← expect .identifier .expectedFunctionName
      let decl ← functionRest fuel name
      return .function decl
    | .varKw =>
      let _ ← takeToken
      variableRest fuel
    | _ => statement fuel

/-- The methods of a class, up to its closing brace. -/
def methodList : Nat → Rule (List FunctionDecl)
  | 0 => throw .outOfFuel
  | fuel + 1 => do
    if (← atEnd) then return []
    else if (← check .rightBrace) then return []
    else
      let _ ← accept .functionKw
      let name ← expect .identifier .expectedMethodName
      let method ← functionRest fuel name
      let others ← methodList fuel
      return method :: others

/-- Parameters and body of a function, behind its name. -/
def functionRest : Nat → Token → Rule FunctionDecl
  | 0, _ => throw .outOfFuel
  | fuel + 1, name => do
    let _ ← expect .leftParen .expectedParametersOpen
    let params ← parameters fuel
    let _ ← expect .rightParen .expectedParametersClose
    let _ ← expect .leftBrace .expectedFunctionOpen
    let body ← withLoops (fun _ => 0) (block fuel)
    return ⟨some name, params, body⟩

/-- A variable declaration, behind its keyword. -/
def variableRest : Nat → Rule Stmt
  | 0 => throw .outOfFuel
  | fuel + 1 => do
    let name ← expect .identifier .expectedVariableName
    if ← accept .equal then
      let value ← expression fuel
      terminate (some value) .expectedVariableEnd
      return .var name (some value)
    else
      terminate none .expectedVariableEnd
      return .var name none

/-- The declarations of a block and its closing brace, behind its opening one. -/
def block : Nat → Rule (List Stmt)
  | 0 => throw .outOfFuel
  | fuel + 1 => do
    let body ← declarations fuel true
    let _ ← expect .rightBrace .expectedBlockClose
    return body

/-- One statement. -/
def statement : Nat → Rule Stmt
  | 0 => throw .outOfFuel
  | fuel + 1 => do
    match ← peekKind with
    | .printKw =>
      let _ ← takeToken
      let value ← expression fuel
      terminate (some value) .expectedPrintEnd
      return .print value
    | .ifKw =>
      let _ ← takeToken
      let _ ← expect .leftParen .expectedIfOpen
      let test ← expression fuel
      let _ ← expect .rightParen .expectedConditionClose
      let yes ← statement fuel
      if ← accept .elseKw then
        let no ← statement fuel
        return .ifElse test yes (some no)
      else return .ifElse test yes none
    | .leftBrace =>
      let _ ← takeToken
      let body ← block fuel
      return .block body
    | .whileKw =>
      let _ ← takeToken
      let _ ← expect .leftParen .expectedWhileOpen
      let test ← expression fuel
      let _ ← expect .rightParen .expectedConditionClose
      let body ← withLoops (· + 1) (statement fuel)
      return .loop test body none
    | .forKw =>
      let _ ← takeToken
      countedLoop fuel
    | .breakKw =>
      let keyword ← takeToken
      loopExit keyword .breakOutsideLoop .exitLoop
    | .continueKw =>
      let keyword ← takeToken
      loopExit keyword .continueOutsideLoop .nextIteration
    | .returnKw =>
      let keyword ← takeToken
      if ← check .semicolon then
        terminate none .expectedReturnEnd
        return .result keyword none
      else
        let value ← expression fuel
        terminate (some value) .expectedReturnEnd
        return .result keyword (some value)
    | _ => expressionStatement fuel

/-- An expression that stands as a statement. -/
def expressionStatement : Nat → Rule Stmt
  | 0 => throw .outOfFuel
  | fuel + 1 => do
    let value ← expression fuel
    terminate (some value) .expectedExpressionEnd
    return .expression value

/-- A counted loop, behind its keyword. -/
def countedLoop : Nat → Rule Stmt
  | 0 => throw .outOfFuel
  | fuel + 1 => do
    let _ ← expect .leftParen .expectedForOpen
    let start ← loopStart fuel
    let test ← optionalExpression fuel .semicolon
    let _ ← expect .semicolon .expectedLoopConditionEnd
    let step ← optionalExpression fuel .rightParen
    let _ ← expect .rightParen .expectedForClose
    let body ← withLoops (· + 1) (statement fuel)
    return .countedLoop start test step body

/-- What a counted loop starts with: a declaration, an expression, or nothing, and a semicolon. -/
def loopStart : Nat → Rule (Option Stmt)
  | 0 => throw .outOfFuel
  | fuel + 1 => do
    if ← accept .semicolon then return none
    else if ← accept .varKw then some <$> variableRest fuel
    else some <$> expressionStatement fuel

/-- An expression, unless the given token is read next. -/
def optionalExpression : Nat → Kind → Rule (Option Expr)
  | 0, _ => throw .outOfFuel
  | fuel + 1, closing => do
    if ← check closing then return none else some <$> expression fuel

/-- One expression. -/
def expression : Nat → Rule Expr
  | 0 => throw .outOfFuel
  | fuel + 1 => do
    let s ← get
    if s.startsStep then countingStep
    else if s.startsLambda then lambda fuel
    else assignment fuel

/-- Parameters, an arrow, and a block or an expression. The body of an expression is its result,
marked with the arrow. -/
def lambda : Nat → Rule Expr
  | 0 => throw .outOfFuel
  | fuel + 1 => do
    let _ ← takeToken
    let params ← parameters fuel
    let _ ← expect .rightParen .expectedParametersClose
    let arrow ← expect .arrow .expectedArrow
    if ← accept .leftBrace then
      let body ← withLoops (fun _ => 0) (block fuel)
      return .lambda ⟨none, params, body⟩
    else
      let value ← expression fuel
      return .lambda ⟨none, params, [.result arrow (some value)]⟩

/-- A value, or a target and what is assigned to it. Something else in the place of the target is
complained about, and stands alone. -/
def assignment : Nat → Rule Expr
  | 0 => throw .outOfFuel
  | fuel + 1 => do
    let target ← conditional fuel
    match ← acceptToken? (· = .equal) with
    | none => return target
    | some equals =>
      let value ← assignment fuel
      match target.assigned? value with
      | some e => return e
      | none =>
        complain equals .expectedTarget
        return target

/-- A value, or a test and the values for either case. -/
def conditional : Nat → Rule Expr
  | 0 => throw .outOfFuel
  | fuel + 1 => do
    let test ← level fuel .disjunction
    if ← accept .question then
      let yes ← expression fuel
      let _ ← expect .colon .expectedFalseCase
      let no ← conditional fuel
      return .conditional test yes no
    else return test

/-- Operands of a level with its operators between them. -/
def level : Nat → Level → Rule Expr
  | 0, _ => throw .outOfFuel
  | fuel + 1, l => do
    let left ← operand fuel l
    levelRest fuel l left

/-- The operators of a level and their right operands, behind a left operand. -/
def levelRest : Nat → Level → Expr → Rule Expr
  | 0, _, _ => throw .outOfFuel
  | fuel + 1, l, left => do
    match ← acceptToken? l.operators with
    | none => return left
    | some operator =>
      let right ← operand fuel l
      levelRest fuel l (l.join left operator right)

/-- An operand of a level. -/
def operand : Nat → Level → Rule Expr
  | 0, _ => throw .outOfFuel
  | fuel + 1, l =>
    match l.tighter? with
    | some tighter => level fuel tighter
    | none => unary fuel

/-- A value with unary operators in front. -/
def unary : Nat → Rule Expr
  | 0 => throw .outOfFuel
  | fuel + 1 => do
    match ← acceptToken? (fun k => k = .bang || k = .minus) with
    | some operator =>
      let value ← unary fuel
      return .unary operator value
    | none =>
      let value ← primary fuel
      suffixes fuel value

/-- Calls, properties and indices behind a value. -/
def suffixes : Nat → Expr → Rule Expr
  | 0, _ => throw .outOfFuel
  | fuel + 1, value => do
    match ← peekKind with
    | .leftParen =>
      let _ ← takeToken
      let arguments ← expressions fuel .rightParen true
      let paren ← expect .rightParen .expectedArgumentsClose
      suffixes fuel (.call value paren arguments)
    | .dot =>
      let _ ← takeToken
      let name ← expect .identifier .expectedPropertyName
      suffixes fuel (.get value name)
    | .leftBracket =>
      let bracket ← takeToken
      let key ← expression fuel
      let _ ← expect .rightBracket .expectedIndexClose
      suffixes fuel (.index bracket value key)
    | _ => return value

/-- Expressions with commas between them, unless the closing token is read next. -/
def expressions : Nat → Kind → Bool → Rule (List Expr)
  | 0, _, _ => throw .outOfFuel
  | fuel + 1, closing, limited => do
    if ← check closing then return [] else expressionList fuel limited 0

/-- At least one expression, `count` having been read before. -/
def expressionList : Nat → Bool → Nat → Rule (List Expr)
  | 0, _, _ => throw .outOfFuel
  | fuel + 1, limited, count => do
    if limited && maxArguments ≤ count then complainNext .tooManyArguments
    let value ← expression fuel
    if ← accept .comma then
      let values ← expressionList fuel limited (count + 1)
      return value :: values
    else return [value]

/-- A constant, a name, an array, or an expression in parentheses. -/
def primary : Nat → Rule Expr
  | 0 => throw .outOfFuel
  | fuel + 1 => do
    match ← peekKind with
    | .falseKw => let _ ← takeToken; return .literal (.boolean false)
    | .trueKw => let _ ← takeToken; return .literal (.boolean true)
    | .nullKw => let _ ← takeToken; return .literal .nil
    | .undefinedKw => let _ ← takeToken; return .literal .nil
    | .newlineKw => let _ ← takeToken; return .literal (.string "\n")
    | .number value => let _ ← takeToken; return .literal (.number value)
    | .string text => let _ ← takeToken; return .literal (.string text)
    | .selfKw =>
      let keyword ← takeToken
      let id ← freshId
      return .self id keyword
    | .identifier =>
      let name ← takeToken
      let id ← freshId
      return .var id name
    | .leftParen =>
      let _ ← takeToken
      let inner ← expression fuel
      let _ ← expect .rightParen .expectedGroupClose
      return .group inner
    | .leftBracket =>
      let bracket ← takeToken
      let elements ← expressions fuel .rightBracket false
      let _ ← expect .rightBracket .expectedArrayClose
      return .array bracket elements
    | _ => fail .expectedExpression

end

end Parser

end Roteiro
