import Roteiro.Proofs.Grammar

/-!
# What failures are blamed on

A failure of a run is blamed on a token: an operator, a bracket, the closing parenthesis of a call,
or a name that is read, assigned or looked for in an instance. `Expr.blamed` and its companions list
these tokens of a tree.

Nearly all of them are tokens that the tree was read from. The exception is the operator of a
counting step, which is not written: it is made from the token of the step, and stands on its line.

* `Derives.supplied`: what is listed comes from the tokens that spell the tree.
-/

namespace Roteiro

mutual

/-- The tokens of an expression that failures are blamed on. -/
def Expr.blamed : Expr → List Token
  | .literal _ => []
  | .unary operator operand => operator :: operand.blamed
  | .binary left operator right => left.blamed ++ operator :: right.blamed
  | .group inner => inner.blamed
  | .logical left _ right => left.blamed ++ right.blamed
  | .conditional test yes no => test.blamed ++ (yes.blamed ++ no.blamed)
  | .var _ name => [name]
  | .assign _ name value => name :: value.blamed
  | .call callee paren arguments => callee.blamed ++ (blamedInExprs arguments ++ [paren])
  | .lambda decl => decl.blamed
  | .array _ elements => blamedInExprs elements
  | .index bracket base key => base.blamed ++ bracket :: key.blamed
  | .indexSet bracket base key value => base.blamed ++ bracket :: (key.blamed ++ value.blamed)
  | .get object name => object.blamed ++ [name]
  | .set object name value => object.blamed ++ name :: value.blamed
  | .self _ keyword => [keyword]

/-- The tokens of several expressions that failures are blamed on. -/
def blamedInExprs : List Expr → List Token
  | [] => []
  | e :: es => e.blamed ++ blamedInExprs es

/-- The tokens of a statement that failures are blamed on. -/
def Stmt.blamed : Stmt → List Token
  | .expression expr => expr.blamed
  | .print expr => expr.blamed
  | .var _ none => []
  | .var _ (some value) => value.blamed
  | .block body => blamedInStmts body
  | .ifElse test yes none => test.blamed ++ yes.blamed
  | .ifElse test yes (some no) => test.blamed ++ (yes.blamed ++ no.blamed)
  | .loop test body none => test.blamed ++ body.blamed
  | .loop test body (some step) => test.blamed ++ (body.blamed ++ step.blamed)
  | .exitLoop _ => []
  | .nextIteration _ => []
  | .function decl => decl.blamed
  | .result _ none => []
  | .result _ (some value) => value.blamed
  | .classDecl _ methods => blamedInMethods methods

/-- The tokens of several statements that failures are blamed on. -/
def blamedInStmts : List Stmt → List Token
  | [] => []
  | s :: ss => s.blamed ++ blamedInStmts ss

/-- The tokens of the body of a function that failures are blamed on. -/
def FunctionDecl.blamed : FunctionDecl → List Token
  | ⟨_, _, body⟩ => blamedInStmts body

/-- The tokens of several methods that failures are blamed on. -/
def blamedInMethods : List FunctionDecl → List Token
  | [] => []
  | f :: fs => f.blamed ++ blamedInMethods fs

end

attribute [simp] Expr.blamed blamedInExprs Stmt.blamed blamedInStmts FunctionDecl.blamed
  blamedInMethods

theorem FunctionDecl.blamed_eq (f : FunctionDecl) : f.blamed = blamedInStmts f.body := by
  cases f
  rfl

theorem blamed_subset_of_mem {f : FunctionDecl} {fs : List FunctionDecl} (h : f ∈ fs) :
    f.blamed ⊆ blamedInMethods fs := by
  induction fs with
  | nil => cases h
  | cons g fs ih =>
    rcases List.mem_cons.mp h with rfl | h
    · exact List.subset_append_left _ _
    · exact List.Subset.trans (ih h) (List.subset_append_right _ _)

theorem blamed_subset_of_mem_stmts {s : Stmt} {ss : List Stmt} (h : s ∈ ss) :
    s.blamed ⊆ blamedInStmts ss := by
  induction ss with
  | nil => cases h
  | cons t ss ih =>
    rcases List.mem_cons.mp h with rfl | h
    · exact List.subset_append_left _ _
    · exact List.Subset.trans (ih h) (List.subset_append_right _ _)

/-- In a counted loop there is nothing to blame besides its parts. -/
theorem Stmt.blamed_countedLoop (start : Option Stmt) (test step : Option Expr) (body : Stmt) :
    (Stmt.countedLoop start test step body).blamed ⊆
      (start.map Stmt.blamed).getD [] ++ ((test.map Expr.blamed).getD [] ++
        ((step.map Expr.blamed).getD [] ++ body.blamed)) := by
  cases start <;> cases test <;> cases step <;>
    simp +contextual [Stmt.countedLoop, List.subset_def, or_imp]

namespace Grammar

/-- The token stands among these tokens, or it is the operator that one of their counting steps
stands for. -/
def Supplies (ts : List Token) (t : Token) : Prop :=
  t ∈ ts ∨ ∃ step ∈ ts, (step.kind = .plusPlus ∨ step.kind = .minusMinus) ∧ t = stepOperator step

/-- The tokens in the trees of a symbol that failures are blamed on. -/
def Symbol.blamed : (x : Symbol) → x.Tree → List Token
  | declarations _, ss => blamedInStmts ss
  | declaration _, s => s.blamed
  | statement _ _, s => s.blamed
  | methods, fs => blamedInMethods fs
  | function _, f => f.blamed
  | variableRest, s => s.blamed
  | expressionStatement, s => s.blamed
  | loopStart, s? => (s?.map Stmt.blamed).getD []
  | optionalExpression, e? => (e?.map Expr.blamed).getD []
  | expression, e => e.blamed
  | assignment, e => e.blamed
  | conditional, e => e.blamed
  | level _, e => e.blamed
  | operand _, e => e.blamed
  | unary, e => e.blamed
  | call, e => e.blamed
  | primary, e => e.blamed
  | expressions, es => blamedInExprs es
  | expressionList, es => blamedInExprs es

/-- All of these tokens are supplied. -/
def Supplied (bs ts : List Token) : Prop := ∀ t ∈ bs, Supplies ts t

section Supplied

variable {bs bs' ts ts' : List Token} {t : Token}

theorem Supplies.mono (h : Supplies ts t) (hts : ts ⊆ ts') : Supplies ts' t := by
  rcases h with hmem | ⟨step, hstep, hkind, heq⟩
  · exact .inl (hts hmem)
  · exact .inr ⟨step, hts hstep, hkind, heq⟩

theorem Supplied.mono (h : Supplied bs ts) (hts : ts ⊆ ts') : Supplied bs ts' :=
  fun t ht => (h t ht).mono hts

theorem Supplied.of_subset (h : Supplied bs ts) (hbs : bs' ⊆ bs) : Supplied bs' ts :=
  fun t ht => h t (hbs ht)

theorem Supplied.none (ts : List Token) : Supplied [] ts := nofun

theorem Supplied.append (h : Supplied bs ts) (h' : Supplied bs' ts') :
    Supplied (bs ++ bs') (ts ++ ts') := by
  intro t ht
  rcases List.mem_append.mp ht with ht | ht
  · exact (h t ht).mono (List.subset_append_left _ _)
  · exact (h' t ht).mono (List.subset_append_right _ _)

/-- A token in front that may be blamed. -/
theorem Supplied.take (h : Supplied bs ts) (t : Token) : Supplied (t :: bs) (t :: ts) := by
  intro u hu
  rcases List.mem_cons.mp hu with rfl | hu
  · exact .inl List.mem_cons_self
  · exact (h u hu).mono (List.subset_cons_self _ _)

/-- A token in front that nothing is blamed on. -/
theorem Supplied.skip (h : Supplied bs ts) (t : Token) : Supplied bs (t :: ts) :=
  h.mono (List.subset_cons_self _ _)

/-- Tokens behind that nothing is blamed on. -/
theorem Supplied.ending (h : Supplied bs ts) (more : List Token) : Supplied bs (ts ++ more) :=
  h.mono (List.subset_append_left _ _)

/-- Tokens in front that nothing is blamed on. -/
theorem Supplied.behind (h : Supplied bs ts) (front : List Token) : Supplied bs (front ++ ts) :=
  h.mono (List.subset_append_right _ _)

end Supplied

/-- **Failures are blamed on tokens that the tree was read from**, or on the operators of counting
steps. -/
theorem Derives.supplied {x : Symbol} {ts : List Token} {t : x.Tree} (h : Derives x ts t) :
    Supplied (x.blamed t) ts := by
  induction h with
  | noDeclarations | noMethods | noExpressions | noExpression | noStart => exact .none _
  | moreDeclarations _ _ ih ih' => exact ih.append ih'
  | classDeclaration _ _ _ _ _ ih => exact (((ih.ending _).skip _).skip _).skip _
  | functionDeclaration _ _ _ ih => exact (ih.skip _).skip _
  | variableDeclaration _ _ ih | startVariable _ _ ih => exact ih.skip _
  | moreMethods _ _ _ _ ih ih' => exact ((ih.append ih').skip _).behind _
  | function _ _ _ _ _ _ ih => exact ((((ih.ending _).skip _).skip _).behind _).skip _
  | variableOnly | exitLoop | nextIteration | constant => exact .none _
  | variableValue _ _ _ _ ih => exact ((ih.ending _).skip _).skip _
  | print _ _ _ ih | block _ _ _ ih => exact (ih.ending _).skip _
  | ifOnly _ _ _ _ _ ihtest ihyes => exact ((ihtest.append (ihyes.skip _)).skip _).skip _
  | ifElse _ _ _ _ _ _ _ ihtest ihyes ihno =>
    exact ((ihtest.append ((ihyes.append (ihno.skip _)).skip _)).skip _).skip _
  | whileLoop _ _ _ _ _ ihtest ihbody => exact ((ihtest.append (ihbody.skip _)).skip _).skip _
  | countedLoop _ _ _ _ _ _ _ _ ihstart ihtest ihstep ihbody =>
    refine Supplied.of_subset ?_ (Stmt.blamed_countedLoop _ _ _ _)
    refine ((ihstart.append ?_).skip _).skip _
    exact ihtest.append ((ihstep.append (ihbody.skip _)).skip _)
  | @result _ _ _ _ _ value? _ _ _ ih =>
    cases value? with
    | none => exact .none _
    | some e => exact (ih.ending _).skip _
  | expressionStatement _ _ ih => exact ih.ending _
  | @step name step ending _ _ _ hstep =>
    -- the name is assigned and read, and the operator is made from the step
    have hname : Supplies (name :: step :: ending) name := .inl List.mem_cons_self
    have hoperator : Supplies (name :: step :: ending) (stepOperator step) :=
      .inr ⟨step, List.mem_cons_of_mem _ List.mem_cons_self, hstep, rfl⟩
    intro t ht
    simp only [Symbol.blamed, Expr.step, Expr.blamed, List.mem_cons, List.mem_append,
      List.not_mem_nil, or_false] at ht
    rcases ht with rfl | rfl | rfl
    · exact hname
    · exact hname
    · exact hoperator
  | lambdaBlock _ _ _ _ _ _ _ ih =>
    exact (((((ih.ending _).skip _).skip _).skip _).behind _).skip _
  | lambdaValue _ _ _ _ _ ih =>
    refine Supplied.of_subset ((((ih.skip _).skip _).behind _).skip _) ?_
    simp [Symbol.blamed]
  | statementDeclaration _ ih | bareExpression _ ih | startExpression _ ih | someExpression _ ih
  | assignmentExpression _ ih | conditionalAssignment _ ih | noChoice _ ih | firstOperand _ ih
  | tighterOperand _ _ ih | unaryOperand _ _ ih | plain _ ih | noSuffix _ ih
  | someExpressions _ ih => exact ih
  | assignName _ _ _ ih => exact (ih.skip _).take _
  | assignProperty _ _ _ _ _ ih ih' => exact ih.append (((ih'.skip _).take _).skip _)
  | assignEntry _ _ _ _ _ _ ihbase ihkey ihvalue =>
    exact ihbase.append ((ihkey.append ((ihvalue.skip _).skip _)).take _)
  | choice _ _ _ _ _ ihtest ihyes ihno =>
    exact ihtest.append ((ihyes.append (ihno.skip _)).skip _)
  | @join l operator _ _ _ _ _ _ _ ih ih' =>
    cases l with
    | disjunction | conjunction => exact ih.append (ih'.skip operator)
    | equality | comparison | sum | product => exact ih.append (ih'.take operator)
  | unary _ _ ih => exact ih.take _
  | call _ _ _ _ _ ih ih' => exact ih.append ((ih'.append ((Supplied.none []).take _)).skip _)
  | property _ _ _ ih => exact ih.append (((Supplied.none []).take _).skip _)
  | entry _ _ _ _ ih ih' => exact ih.append ((ih'.ending _).take _)
  | receiver | name => exact (Supplied.none []).take _
  | group _ _ _ ih | array _ _ _ ih => exact (ih.ending _).skip _
  | lastExpression _ ih => simpa [Symbol.blamed] using ih
  | moreExpressions _ _ _ ih ih' => exact ih.append (ih'.skip _)

end Grammar

end Roteiro
