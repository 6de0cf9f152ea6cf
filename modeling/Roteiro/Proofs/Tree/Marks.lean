import Roteiro.Proofs.Grammar

/-!
# What there may be complaints about

The analysis of scopes complains about names that are declared or read, about the receiver, and
about the keywords that leave a loop or a function. `Expr.marks` and its companions list these
tokens of a tree in the order of the source, each with the number of steps of counted loops that it
stands in. A step is listed once, in front of the body, although the tree has two copies of it.

* `Derives.among`: what is listed are tokens that spell the tree, in their order. So each is listed
  once, if no two tokens are the same.
-/

namespace Roteiro

/-- A token that there may be complaints about. -/
structure Mark where
  token : Token
  /-- The number of steps of counted loops around it. -/
  steps : Nat

/-- The token stands in one more step. -/
def Mark.deeper (m : Mark) : Mark := ⟨m.token, m.steps + 1⟩

/-- A token with no step around it. -/
def mark (t : Token) : Mark := ⟨t, 0⟩

@[simp] theorem token_mark (t : Token) : (mark t).token = t := rfl

@[simp] theorem token_comp_mark : Mark.token ∘ mark = id := rfl

@[simp] theorem token_comp_deeper : Mark.token ∘ Mark.deeper = Mark.token := rfl

mutual

/-- The tokens of an expression that there may be complaints about. -/
def Expr.marks : Expr → List Mark
  | .literal _ => []
  | .unary _ operand => operand.marks
  | .binary left _ right => left.marks ++ right.marks
  | .group inner => inner.marks
  | .logical left _ right => left.marks ++ right.marks
  | .conditional test yes no => test.marks ++ (yes.marks ++ no.marks)
  | .var _ name => [mark name]
  | .assign _ _ value => value.marks
  | .call callee _ arguments => callee.marks ++ marksOfExprs arguments
  | .lambda decl => decl.marks
  | .array _ elements => marksOfExprs elements
  | .index _ base key => base.marks ++ key.marks
  | .indexSet _ base key value => base.marks ++ (key.marks ++ value.marks)
  | .get object _ => object.marks
  | .set object _ value => object.marks ++ value.marks
  | .self _ keyword => [mark keyword]

/-- The tokens of several expressions that there may be complaints about. -/
def marksOfExprs : List Expr → List Mark
  | [] => []
  | e :: es => e.marks ++ marksOfExprs es

/-- The tokens of a statement that there may be complaints about. Each step is listed once, and what
stands in it stands in one more step. -/
def Stmt.marks : Stmt → List Mark
  | .expression expr => expr.marks
  | .print expr => expr.marks
  | .var name none => [mark name]
  | .var name (some value) => mark name :: value.marks
  | .block body => marksOfStmts body
  | .ifElse test yes none => test.marks ++ yes.marks
  | .ifElse test yes (some no) => test.marks ++ (yes.marks ++ no.marks)
  | .loop test body none => test.marks ++ body.marks
  | .loop test (.block [body, .expression step]) (some _) =>
    test.marks ++ (step.marks.map Mark.deeper ++ body.marks)
  | .loop test body (some _) => test.marks ++ body.marks
  | .exitLoop keyword => [mark keyword]
  | .nextIteration keyword => [mark keyword]
  | .function decl => decl.name?.toList.map mark ++ decl.marks
  | .result keyword none => [mark keyword]
  | .result keyword (some value) => mark keyword :: value.marks
  | .classDecl name methods => mark name :: marksOfMethods methods

/-- The tokens of several statements that there may be complaints about. -/
def marksOfStmts : List Stmt → List Mark
  | [] => []
  | s :: ss => s.marks ++ marksOfStmts ss

/-- The parameters of a function and the tokens of its body. -/
def FunctionDecl.marks : FunctionDecl → List Mark
  | ⟨_, params, body⟩ => params.map mark ++ marksOfStmts body

/-- The tokens of several methods that there may be complaints about. -/
def marksOfMethods : List FunctionDecl → List Mark
  | [] => []
  | f :: fs => f.marks ++ marksOfMethods fs

end

attribute [simp] Expr.marks marksOfExprs Stmt.marks marksOfStmts FunctionDecl.marks marksOfMethods

/-- The parts of a counted loop, in the order of the source. -/
theorem Stmt.marks_countedLoop (start : Option Stmt) (test step : Option Expr) (body : Stmt) :
    (Stmt.countedLoop start test step body).marks =
      (start.map Stmt.marks).getD [] ++ ((test.map Expr.marks).getD [] ++
        ((step.map fun e => e.marks.map Mark.deeper).getD [] ++ body.marks)) := by
  cases start <;> cases test <;> cases step <;> simp [Stmt.countedLoop]

namespace Grammar

/-- The tokens in the trees of a symbol that there may be complaints about. -/
def Symbol.marks : (x : Symbol) → x.Tree → List Mark
  | declarations _, ss => marksOfStmts ss
  | declaration _, s => s.marks
  | statement _ _, s => s.marks
  | methods, fs => marksOfMethods fs
  | function _, f => f.marks
  | variableRest, s => s.marks
  | expressionStatement, s => s.marks
  | loopStart, s? => (s?.map Stmt.marks).getD []
  | optionalExpression, e? => (e?.map Expr.marks).getD []
  | expression, e => e.marks
  | assignment, e => e.marks
  | conditional, e => e.marks
  | level _, e => e.marks
  | operand _, e => e.marks
  | unary, e => e.marks
  | call, e => e.marks
  | primary, e => e.marks
  | expressions, es => marksOfExprs es
  | expressionList, es => marksOfExprs es

/-- Tokens that are listed come from these, in their order. -/
def Among (ms : List Mark) (ts : List Token) : Prop := (ms.map Mark.token).Sublist ts

section Among

variable {ms ms' : List Mark} {ts ts' : List Token} {t : Token}

theorem Among.none (ts : List Token) : Among [] ts := List.nil_sublist ts

theorem Among.append (h : Among ms ts) (h' : Among ms' ts') : Among (ms ++ ms') (ts ++ ts') := by
  rw [Among, List.map_append]
  exact List.Sublist.append h h'

/-- A token in front that is listed. -/
theorem Among.take (h : Among ms ts) (t : Token) : Among (mark t :: ms) (t :: ts) :=
  List.Sublist.cons_cons t h

/-- A token in front that is not listed. -/
theorem Among.skip (h : Among ms ts) (t : Token) : Among ms (t :: ts) := List.Sublist.cons t h

/-- Tokens behind that are not listed. -/
theorem Among.ending (h : Among ms ts) (more : List Token) : Among ms (ts ++ more) :=
  h.trans (List.sublist_append_left ts more)

/-- Tokens in front that are not listed. -/
theorem Among.behind (h : Among ms ts) (front : List Token) : Among ms (front ++ ts) :=
  h.trans (List.sublist_append_right front ts)

theorem Among.deeper (h : Among ms ts) : Among (ms.map Mark.deeper) ts := by
  rwa [Among, List.map_map, token_comp_deeper]

theorem among_names {names : List Token} (h : Names ts names) : Among (names.map mark) ts := by
  induction h with
  | last => exact (Among.none []).take _
  | more _ _ _ ih => exact (ih.skip _).take _

theorem among_parameters {params : List Token} (h : Parameters ts params) :
    Among (params.map mark) ts := by
  rcases h.1 with ⟨rfl, rfl⟩ | hnames
  · exact .none []
  · exact among_names hnames

end Among

/-- **What is listed are tokens that spell the tree**, in their order. -/
theorem Derives.among {x : Symbol} {ts : List Token} {t : x.Tree} (h : Derives x ts t) :
    Among (x.marks t) ts := by
  induction h with
  | noDeclarations | noMethods | noExpressions | noExpression => exact .none []
  | moreDeclarations _ _ ih ih' => exact ih.append ih'
  | classDeclaration _ _ _ _ _ ih => exact (((ih.ending _).skip _).take _).skip _
  | functionDeclaration _ _ hdecl ih =>
    cases hdecl
    exact (ih.take _).skip _
  | variableDeclaration _ _ ih => exact ih.skip _
  | statementDeclaration _ ih => exact ih
  | moreMethods _ _ _ _ ih ih' => exact ((ih.append ih').skip _).behind _
  | function _ hparams _ _ _ _ ih =>
    exact ((among_parameters hparams).append (((ih.ending _).skip _).skip _)).skip _
  | variableOnly => exact (Among.none _).take _
  | variableValue _ _ _ _ ih => exact ((ih.ending _).skip _).take _
  | print _ _ _ ih => exact (ih.ending _).skip _
  | ifOnly _ _ _ _ _ ihtest ihyes => exact ((ihtest.append (ihyes.skip _)).skip _).skip _
  | ifElse _ _ _ _ _ _ _ ihtest ihyes ihno =>
    exact ((ihtest.append ((ihyes.append (ihno.skip _)).skip _)).skip _).skip _
  | block _ _ _ ih => exact (ih.ending _).skip _
  | whileLoop _ _ _ _ _ ihtest ihbody => exact ((ihtest.append (ihbody.skip _)).skip _).skip _
  | @countedLoop _ _ _ _ _ _ _ _ us _ start test step body _ _ _ _ _ _ _ _ ihstart ihtest ihstep
      ihbody =>
    have hstep : Among ((step.map fun e => e.marks.map Mark.deeper).getD []) us := by
      cases step with
      | none => exact .none _
      | some e => exact ihstep.deeper
    rw [Symbol.marks, Stmt.marks_countedLoop]
    refine ((ihstart.append ?_).skip _).skip _
    exact ihtest.append ((hstep.append (ihbody.skip _)).skip _)
  | exitLoop | nextIteration => exact (Among.none _).take _
  | @result _ _ _ _ _ value? _ _ _ ih =>
    cases value? with
    | none => exact (Among.none _).take _
    | some e => exact (ih.ending _).take _
  | bareExpression _ ih => exact ih
  | expressionStatement _ _ ih => exact ih.ending _
  | noStart => exact .none _
  | startVariable _ _ ih => exact ih.skip _
  | startExpression _ ih | someExpression _ ih => exact ih
  | step => exact (Among.none _).take _
  | lambdaBlock _ hparams _ _ _ _ _ ih =>
    exact ((among_parameters hparams).append ((((ih.ending _).skip _).skip _).skip _)).skip _
  | @lambdaValue _ closeParen arrow _ _ _ _ _ hparams _ _ _ ih =>
    have hbody := (among_parameters hparams).append ((ih.take arrow).skip closeParen)
    simpa [Symbol.marks] using hbody.skip _
  | assignmentExpression _ ih | conditionalAssignment _ ih | noChoice _ ih | firstOperand _ ih
  | tighterOperand _ _ ih | unaryOperand _ _ ih | plain _ ih | noSuffix _ ih
  | someExpressions _ ih => exact ih
  | assignName _ _ _ ih => exact (ih.skip _).skip _
  | assignProperty _ _ _ _ _ ih ih' => exact ih.append (((ih'.skip _).skip _).skip _)
  | assignEntry _ _ _ _ _ _ ihbase ihkey ihvalue =>
    exact ihbase.append ((ihkey.append ((ihvalue.skip _).skip _)).skip _)
  | choice _ _ _ _ _ ihtest ihyes ihno =>
    exact ihtest.append ((ihyes.append (ihno.skip _)).skip _)
  | @join l operator _ _ _ _ _ _ _ ih ih' =>
    have hboth := ih.append (ih'.skip operator)
    cases l <;> exact hboth
  | unary _ _ ih => exact ih.skip _
  | call _ _ _ _ _ ih ih' => exact ih.append ((ih'.ending _).skip _)
  | property _ _ _ ih => exact ih.ending _
  | entry _ _ _ _ ih ih' => exact ih.append ((ih'.ending _).skip _)
  | constant => exact .none _
  | receiver | name => exact (Among.none _).take _
  | group _ _ _ ih | array _ _ _ ih => exact (ih.ending _).skip _
  | lastExpression _ ih => simpa [Symbol.marks] using ih
  | moreExpressions _ _ _ ih ih' => exact ih.append (ih'.skip _)

end Grammar

end Roteiro
