import Roteiro.Parser.Rules

/-!
# The grammar, as derivations

`Derives x ts t` says that the tokens `ts` spell the symbol `x`, and that `t` is their tree. The
relation follows the grammar line by line and knows nothing of how tokens are read: a derivation
uses each of its tokens once, in order, and a tree has a derivation only if some tokens spell it.

Three things that a bare list of productions leaves open are part of the symbols:

* **Loops.** A statement symbol says whether a loop of the present function stands around it.
  `pare` and `continue` are derived only there, and every function body starts afresh.
* **The nearest `se`.** A *closed* statement is one behind which no `senao` can be taken up. What
  stands between a test and `senao` is closed, so that a `senao` belongs to the nearest `se` that
  has none.
* **Levels.** The operators of a level join to the left, and only a tighter level stands to the
  right of an operator.

The numbers of name occurrences are not part of the grammar: a derivation leaves them open.
-/

namespace Roteiro

namespace Grammar

open Roteiro.Parser (Level)

/-- The symbols of the grammar that have trees. -/
inductive Symbol where
  /-- Declarations one after the other. -/
  | declarations (inLoop : Bool)
  | declaration (inLoop : Bool)
  /-- A statement; a closed one leaves no `se` open for a `senao` behind it. -/
  | statement (inLoop closed : Bool)
  /-- The methods of a class. -/
  | methods
  /-- Parameters and body of a function, behind its name if it has one. -/
  | function (name? : Option Token)
  /-- A variable declaration, behind its keyword. -/
  | variableRest
  /-- An expression that stands as a statement. -/
  | expressionStatement
  /-- What a counted loop starts with. -/
  | loopStart
  | optionalExpression
  | expression
  | assignment
  | conditional
  | level (l : Level)
  /-- An operand of a level. -/
  | operand (l : Level)
  | unary
  | call
  | primary
  /-- Expressions with commas between them, or none. -/
  | expressions
  /-- At least one expression, with commas between them. -/
  | expressionList

/-- What the tokens of a symbol are the spelling of. -/
@[reducible] def Symbol.Tree : Symbol → Type
  | declarations _ => List Stmt
  | declaration _ => Stmt
  | statement _ _ => Stmt
  | methods => List FunctionDecl
  | function _ => FunctionDecl
  | variableRest => Stmt
  | expressionStatement => Stmt
  | loopStart => Option Stmt
  | optionalExpression => Option Expr
  | expression => Expr
  | assignment => Expr
  | conditional => Expr
  | level _ => Expr
  | operand _ => Expr
  | unary => Expr
  | call => Expr
  | primary => Expr
  | expressions => List Expr
  | expressionList => List Expr

/-- Names with commas between them. -/
inductive Names : List Token → List Token → Prop
  | last {name : Token} (hname : name.kind = .identifier) : Names [name] [name]
  | more {name comma : Token} {ts names : List Token} (hname : name.kind = .identifier)
      (hcomma : comma.kind = .comma) (others : Names ts names) :
      Names (name :: comma :: ts) (name :: names)

/-- At most two hundred and fifty-five names with commas between them, or none. -/
def Parameters (ts names : List Token) : Prop :=
  (ts = [] ∧ names = [] ∨ Names ts names) ∧ names.length ≤ 255

/-- How a statement ends whose value, if it has one, is spelled by `ts`: with a semicolon; or with
the semicolon that belongs to a step at the end of the value; or with nothing, behind a lambda. -/
inductive Ends (ts : List Token) : Option Expr → List Token → Prop
  | written {value? : Option Expr} {semicolon : Token} (h : semicolon.kind = .semicolon) :
      Ends ts value? [semicolon]
  | taken {value : Expr} {semicolon : Token} (hlast : ts.getLast? = some semicolon)
      (h : semicolon.kind = .semicolon) : Ends ts (some value) []
  | behindLambda {decl : FunctionDecl} : Ends ts (some (.lambda decl)) []

/-- The operator that a counting step stands for, on the line of the step. -/
def stepOperator (step : Token) : Token :=
  if step.kind = .plusPlus then ⟨.plus, "+", step.line⟩ else ⟨.minus, "-", step.line⟩

theorem line_stepOperator (step : Token) : (stepOperator step).line = step.line := by
  unfold stepOperator
  split <;> rfl

/-- The constant that a token of its own stands for. -/
def constant? : Kind → Option Literal
  | .falseKw => some (.boolean false)
  | .trueKw => some (.boolean true)
  | .nullKw => some .nil
  | .undefinedKw => some .nil
  | .newlineKw => some (.string "\n")
  | .number value => some (.number value)
  | .string text => some (.string text)
  | _ => none

/-- The tokens of a symbol, and the tree they spell. -/
inductive Derives : (x : Symbol) → List Token → x.Tree → Prop
  -- declaration*
  | noDeclarations {inLoop : Bool} : Derives (.declarations inLoop) [] []
  | moreDeclarations {inLoop : Bool} {ts us : List Token} {first : Stmt} {others : List Stmt}
      (hfirst : Derives (.declaration inLoop) ts first)
      (hothers : Derives (.declarations inLoop) us others) :
      Derives (.declarations inLoop) (ts ++ us) (first :: others)
  -- declaration: "classe" NAME "{" methods "}" | "funcao" NAME function | "var" … | statement
  | classDeclaration {inLoop : Bool} {keyword name opening closing : Token} {ts : List Token}
      {methods : List FunctionDecl} (hkeyword : keyword.kind = .classKw)
      (hname : name.kind = .identifier) (hopening : opening.kind = .leftBrace)
      (hmethods : Derives .methods ts methods) (hclosing : closing.kind = .rightBrace) :
      Derives (.declaration inLoop) (keyword :: name :: opening :: (ts ++ [closing]))
        (.classDecl name methods)
  | functionDeclaration {inLoop : Bool} {keyword name : Token} {ts : List Token}
      {decl : FunctionDecl} (hkeyword : keyword.kind = .functionKw)
      (hname : name.kind = .identifier) (hdecl : Derives (.function (some name)) ts decl) :
      Derives (.declaration inLoop) (keyword :: name :: ts) (.function decl)
  | variableDeclaration {inLoop : Bool} {keyword : Token} {ts : List Token} {s : Stmt}
      (hkeyword : keyword.kind = .varKw) (hrest : Derives .variableRest ts s) :
      Derives (.declaration inLoop) (keyword :: ts) s
  | statementDeclaration {inLoop : Bool} {ts : List Token} {s : Stmt}
      (hs : Derives (.statement inLoop false) ts s) : Derives (.declaration inLoop) ts s
  -- methods: ( "funcao"? NAME function )*
  | noMethods : Derives .methods [] []
  | moreMethods {front : List Token} {name : Token} {ts us : List Token} {method : FunctionDecl}
      {others : List FunctionDecl} (hfront : front = [] ∨ ∃ t, front = [t] ∧ t.kind = .functionKw)
      (hname : name.kind = .identifier) (hmethod : Derives (.function (some name)) ts method)
      (hothers : Derives .methods us others) :
      Derives .methods (front ++ name :: (ts ++ us)) (method :: others)
  -- function: "(" parameters? ")" "{" declaration* "}"
  | function {name? : Option Token} {openParen closeParen opening closing : Token}
      {ps params ts : List Token} {body : List Stmt} (hopenParen : openParen.kind = .leftParen)
      (hparams : Parameters ps params) (hcloseParen : closeParen.kind = .rightParen)
      (hopening : opening.kind = .leftBrace) (hbody : Derives (.declarations false) ts body)
      (hclosing : closing.kind = .rightBrace) :
      Derives (.function name?)
        (openParen :: (ps ++ closeParen :: opening :: (ts ++ [closing]))) ⟨name?, params, body⟩
  -- NAME ( "=" expression )? ";"
  | variableOnly {name semicolon : Token} (hname : name.kind = .identifier)
      (hsemicolon : semicolon.kind = .semicolon) :
      Derives .variableRest [name, semicolon] (.var name none)
  | variableValue {name equal : Token} {ts ending : List Token} {value : Expr}
      (hname : name.kind = .identifier) (hequal : equal.kind = .equal)
      (hvalue : Derives .expression ts value) (hending : Ends ts (some value) ending) :
      Derives .variableRest (name :: equal :: (ts ++ ending)) (.var name (some value))
  -- statements
  | print {inLoop closed : Bool} {keyword : Token} {ts ending : List Token} {value : Expr}
      (hkeyword : keyword.kind = .printKw) (hvalue : Derives .expression ts value)
      (hending : Ends ts (some value) ending) :
      Derives (.statement inLoop closed) (keyword :: (ts ++ ending)) (.print value)
  | ifOnly {inLoop : Bool} {keyword opening closing : Token} {ts us : List Token} {test : Expr}
      {yes : Stmt} (hkeyword : keyword.kind = .ifKw) (hopening : opening.kind = .leftParen)
      (htest : Derives .expression ts test) (hclosing : closing.kind = .rightParen)
      (hyes : Derives (.statement inLoop false) us yes) :
      Derives (.statement inLoop false) (keyword :: opening :: (ts ++ closing :: us))
        (.ifElse test yes none)
  | ifElse {inLoop closed : Bool} {keyword opening closing other : Token} {ts us vs : List Token}
      {test : Expr} {yes no : Stmt} (hkeyword : keyword.kind = .ifKw)
      (hopening : opening.kind = .leftParen) (htest : Derives .expression ts test)
      (hclosing : closing.kind = .rightParen) (hyes : Derives (.statement inLoop true) us yes)
      (hother : other.kind = .elseKw) (hno : Derives (.statement inLoop closed) vs no) :
      Derives (.statement inLoop closed)
        (keyword :: opening :: (ts ++ closing :: (us ++ other :: vs))) (.ifElse test yes (some no))
  | block {inLoop closed : Bool} {opening closing : Token} {ts : List Token} {body : List Stmt}
      (hopening : opening.kind = .leftBrace) (hbody : Derives (.declarations inLoop) ts body)
      (hclosing : closing.kind = .rightBrace) :
      Derives (.statement inLoop closed) (opening :: (ts ++ [closing])) (.block body)
  | whileLoop {inLoop closed : Bool} {keyword opening closing : Token} {ts us : List Token}
      {test : Expr} {body : Stmt} (hkeyword : keyword.kind = .whileKw)
      (hopening : opening.kind = .leftParen) (htest : Derives .expression ts test)
      (hclosing : closing.kind = .rightParen) (hbody : Derives (.statement true closed) us body) :
      Derives (.statement inLoop closed) (keyword :: opening :: (ts ++ closing :: us))
        (.loop test body none)
  | countedLoop {inLoop closed : Bool} {keyword opening semicolon closing : Token}
      {rs ts us vs : List Token} {start : Option Stmt} {test step : Option Expr} {body : Stmt}
      (hkeyword : keyword.kind = .forKw) (hopening : opening.kind = .leftParen)
      (hstart : Derives .loopStart rs start) (htest : Derives .optionalExpression ts test)
      (hsemicolon : semicolon.kind = .semicolon) (hstep : Derives .optionalExpression us step)
      (hclosing : closing.kind = .rightParen) (hbody : Derives (.statement true closed) vs body) :
      Derives (.statement inLoop closed)
        (keyword :: opening :: (rs ++ (ts ++ semicolon :: (us ++ closing :: vs))))
        (.countedLoop start test step body)
  | exitLoop {closed : Bool} {keyword semicolon : Token} (hkeyword : keyword.kind = .breakKw)
      (hsemicolon : semicolon.kind = .semicolon) :
      Derives (.statement true closed) [keyword, semicolon] (.exitLoop keyword)
  | nextIteration {closed : Bool} {keyword semicolon : Token}
      (hkeyword : keyword.kind = .continueKw) (hsemicolon : semicolon.kind = .semicolon) :
      Derives (.statement true closed) [keyword, semicolon] (.nextIteration keyword)
  | result {inLoop closed : Bool} {keyword : Token} {ts ending : List Token} {value? : Option Expr}
      (hkeyword : keyword.kind = .returnKw) (hvalue : Derives .optionalExpression ts value?)
      (hending : Ends ts value? ending) :
      Derives (.statement inLoop closed) (keyword :: (ts ++ ending)) (.result keyword value?)
  | bareExpression {inLoop closed : Bool} {ts : List Token} {s : Stmt}
      (hs : Derives .expressionStatement ts s) : Derives (.statement inLoop closed) ts s
  | expressionStatement {ts ending : List Token} {value : Expr}
      (hvalue : Derives .expression ts value) (hending : Ends ts (some value) ending) :
      Derives .expressionStatement (ts ++ ending) (.expression value)
  -- the head of a counted loop
  | noStart {semicolon : Token} (hsemicolon : semicolon.kind = .semicolon) :
      Derives .loopStart [semicolon] none
  | startVariable {keyword : Token} {ts : List Token} {s : Stmt} (hkeyword : keyword.kind = .varKw)
      (hrest : Derives .variableRest ts s) : Derives .loopStart (keyword :: ts) (some s)
  | startExpression {ts : List Token} {s : Stmt} (hs : Derives .expressionStatement ts s) :
      Derives .loopStart ts (some s)
  | noExpression : Derives .optionalExpression [] none
  | someExpression {ts : List Token} {e : Expr} (he : Derives .expression ts e) :
      Derives .optionalExpression ts (some e)
  -- expression: NAME ( "++" | "--" ) ";"? | "(" parameters? ")" "=>" body | assignment
  | step {name step : Token} {ending : List Token} {readId assignId : Nat}
      (hname : name.kind = .identifier) (hstep : step.kind = .plusPlus ∨ step.kind = .minusMinus)
      (hending : ending = [] ∨ ∃ t, ending = [t] ∧ t.kind = .semicolon) :
      Derives .expression (name :: step :: ending) (.step readId assignId name (stepOperator step))
  | lambdaBlock {openParen closeParen arrow opening closing : Token} {ps params ts : List Token}
      {body : List Stmt} (hopenParen : openParen.kind = .leftParen)
      (hparams : Parameters ps params) (hcloseParen : closeParen.kind = .rightParen)
      (harrow : arrow.kind = .arrow) (hopening : opening.kind = .leftBrace)
      (hbody : Derives (.declarations false) ts body) (hclosing : closing.kind = .rightBrace) :
      Derives .expression
        (openParen :: (ps ++ closeParen :: arrow :: opening :: (ts ++ [closing])))
        (.lambda ⟨none, params, body⟩)
  | lambdaValue {openParen closeParen arrow : Token} {ps params ts : List Token} {value : Expr}
      (hopenParen : openParen.kind = .leftParen) (hparams : Parameters ps params)
      (hcloseParen : closeParen.kind = .rightParen) (harrow : arrow.kind = .arrow)
      (hvalue : Derives .expression ts value) :
      Derives .expression (openParen :: (ps ++ closeParen :: arrow :: ts))
        (.lambda ⟨none, params, [.result arrow (some value)]⟩)
  | assignmentExpression {ts : List Token} {e : Expr} (he : Derives .assignment ts e) :
      Derives .expression ts e
  -- assignment: ( NAME | call "." NAME | call "[" expression "]" ) "=" assignment | conditional
  | assignName {name equal : Token} {ts : List Token} {id : Nat} {value : Expr}
      (hname : name.kind = .identifier) (hequal : equal.kind = .equal)
      (hvalue : Derives .assignment ts value) :
      Derives .assignment (name :: equal :: ts) (.assign id name value)
  | assignProperty {dot name equal : Token} {ts us : List Token} {object value : Expr}
      (hobject : Derives .call ts object) (hdot : dot.kind = .dot)
      (hname : name.kind = .identifier) (hequal : equal.kind = .equal)
      (hvalue : Derives .assignment us value) :
      Derives .assignment (ts ++ dot :: name :: equal :: us) (.set object name value)
  | assignEntry {bracket closing equal : Token} {ts us vs : List Token} {base key value : Expr}
      (hbase : Derives .call ts base) (hbracket : bracket.kind = .leftBracket)
      (hkey : Derives .expression us key) (hclosing : closing.kind = .rightBracket)
      (hequal : equal.kind = .equal) (hvalue : Derives .assignment vs value) :
      Derives .assignment (ts ++ bracket :: (us ++ closing :: equal :: vs))
        (.indexSet bracket base key value)
  | conditionalAssignment {ts : List Token} {e : Expr} (he : Derives .conditional ts e) :
      Derives .assignment ts e
  -- conditional: level ( "?" expression ":" conditional )?
  | choice {question colon : Token} {ts us vs : List Token} {test yes no : Expr}
      (htest : Derives (.level .disjunction) ts test) (hquestion : question.kind = .question)
      (hyes : Derives .expression us yes) (hcolon : colon.kind = .colon)
      (hno : Derives .conditional vs no) :
      Derives .conditional (ts ++ question :: (us ++ colon :: vs)) (.conditional test yes no)
  | noChoice {ts : List Token} {e : Expr} (he : Derives (.level .disjunction) ts e) :
      Derives .conditional ts e
  -- level: operand ( operator operand )*, joined to the left
  | join {l : Level} {operator : Token} {ts us : List Token} {left right : Expr}
      (hleft : Derives (.level l) ts left) (hoperator : l.operators operator.kind = true)
      (hright : Derives (.operand l) us right) :
      Derives (.level l) (ts ++ operator :: us) (l.join left operator right)
  | firstOperand {l : Level} {ts : List Token} {e : Expr} (he : Derives (.operand l) ts e) :
      Derives (.level l) ts e
  | tighterOperand {l tighter : Level} {ts : List Token} {e : Expr}
      (htighter : l.tighter? = some tighter) (he : Derives (.level tighter) ts e) :
      Derives (.operand l) ts e
  | unaryOperand {l : Level} {ts : List Token} {e : Expr} (hlast : l.tighter? = none)
      (he : Derives .unary ts e) : Derives (.operand l) ts e
  -- unary: ( "!" | "-" ) unary | call
  | unary {operator : Token} {ts : List Token} {operand : Expr}
      (hoperator : operator.kind = .bang ∨ operator.kind = .minus)
      (hoperand : Derives .unary ts operand) :
      Derives .unary (operator :: ts) (.unary operator operand)
  | plain {ts : List Token} {e : Expr} (he : Derives .call ts e) : Derives .unary ts e
  -- call: primary ( "(" expressions ")" | "." NAME | "[" expression "]" )*
  | call {opening closing : Token} {ts us : List Token} {callee : Expr} {arguments : List Expr}
      (hcallee : Derives .call ts callee) (hopening : opening.kind = .leftParen)
      (harguments : Derives .expressions us arguments) (hlimit : arguments.length ≤ 255)
      (hclosing : closing.kind = .rightParen) :
      Derives .call (ts ++ opening :: (us ++ [closing])) (.call callee closing arguments)
  | property {dot name : Token} {ts : List Token} {object : Expr}
      (hobject : Derives .call ts object) (hdot : dot.kind = .dot)
      (hname : name.kind = .identifier) : Derives .call (ts ++ [dot, name]) (.get object name)
  | entry {bracket closing : Token} {ts us : List Token} {base key : Expr}
      (hbase : Derives .call ts base) (hbracket : bracket.kind = .leftBracket)
      (hkey : Derives .expression us key) (hclosing : closing.kind = .rightBracket) :
      Derives .call (ts ++ bracket :: (us ++ [closing])) (.index bracket base key)
  | noSuffix {ts : List Token} {e : Expr} (he : Derives .primary ts e) : Derives .call ts e
  -- primary
  | constant {token : Token} {value : Literal} (hconstant : constant? token.kind = some value) :
      Derives .primary [token] (.literal value)
  | receiver {keyword : Token} {id : Nat} (hkeyword : keyword.kind = .selfKw) :
      Derives .primary [keyword] (.self id keyword)
  | name {name : Token} {id : Nat} (hname : name.kind = .identifier) :
      Derives .primary [name] (.var id name)
  | group {opening closing : Token} {ts : List Token} {inner : Expr}
      (hopening : opening.kind = .leftParen) (hinner : Derives .expression ts inner)
      (hclosing : closing.kind = .rightParen) :
      Derives .primary (opening :: (ts ++ [closing])) (.group inner)
  | array {bracket closing : Token} {ts : List Token} {elements : List Expr}
      (hbracket : bracket.kind = .leftBracket) (helements : Derives .expressions ts elements)
      (hclosing : closing.kind = .rightBracket) :
      Derives .primary (bracket :: (ts ++ [closing])) (.array bracket elements)
  -- expression ( "," expression )*
  | noExpressions : Derives .expressions [] []
  | someExpressions {ts : List Token} {es : List Expr} (hes : Derives .expressionList ts es) :
      Derives .expressions ts es
  | lastExpression {ts : List Token} {e : Expr} (he : Derives .expression ts e) :
      Derives .expressionList ts [e]
  | moreExpressions {comma : Token} {ts us : List Token} {e : Expr} {es : List Expr}
      (he : Derives .expression ts e) (hcomma : comma.kind = .comma)
      (hes : Derives .expressionList us es) :
      Derives .expressionList (ts ++ comma :: us) (e :: es)

end Grammar

end Roteiro
