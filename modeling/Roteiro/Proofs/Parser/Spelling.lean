import Roteiro.Proofs.Grammar
import Roteiro.Proofs.Tree.Render

/-!
# How trees are spelled

What can be seen from the tokens of a tree alone, for every tree that has a derivation: with which
tokens its spelling starts and ends, and that it is not mistaken for something else when the parser
looks ahead.

* `Phrase`: the tokens of an expression. They start as an expression does and do not end with a
  semicolon; names and commas up to a closing parenthesis are a phrase only if it is a single name.
* `PlainPhrase`: the tokens of an expression that is no lambda. Whatever stands behind them, unless
  it is an arrow or a step, the parser sees neither a lambda nor a step there.
* `Derives.spelled`: the trees of all symbols are spelled like this.
-/

namespace Roteiro

open Grammar Roteiro.Parser

/-- The kinds a value starts with. -/
def Kind.startsValue (k : Kind) : Bool :=
  k = .identifier || k = .leftParen || k = .leftBracket || k = .selfKw || (constant? k).isSome

/-- The kinds an expression starts with. -/
def Kind.startsExpression (k : Kind) : Bool := k.startsValue || k = .bang || k = .minus

/-- The kinds a statement starts with. -/
def Kind.opensStatement (k : Kind) : Bool :=
  k.startsExpression || k = .printKw || k = .ifKw || k = .leftBrace || k = .whileKw ||
    k = .forKw || k = .breakKw || k = .continueKw || k = .returnKw

/-- The kinds a declaration starts with. -/
def Kind.opensDeclaration (k : Kind) : Bool :=
  k.opensStatement || k = .classKw || k = .functionKw || k = .varKw

/-- The kinds that make a lambda or a step of what stands in front of them. -/
def Kind.turns (k : Kind) : Bool := k = .arrow || k = .plusPlus || k = .minusMinus

/-- The kinds that carry an expression on behind its first part. -/
def Kind.carriesOn (k : Kind) : Bool :=
  k ≠ .identifier && k ≠ .comma && k ≠ .rightParen && !k.turns

namespace Grammar

/-- Some tokens start with a token of such a kind. -/
def Starts (p : Kind → Bool) (ts : List Token) : Prop := ∃ t us, ts = t :: us ∧ p t.kind = true

/-- The last token is no semicolon. -/
def EndsOpen (ts : List Token) : Prop := ∃ front t, ts = front ++ [t] ∧ t.kind ≠ .semicolon

/-- No token is an end marker. -/
def Inside (ts : List Token) : Prop := ∀ t ∈ ts, t.kind ≠ .endOfInput

section Starts

variable {p q : Kind → Bool} {t : Token} {ts us : List Token}

theorem Starts.cons (h : p t.kind = true) : Starts p (t :: ts) := ⟨t, ts, rfl, h⟩

theorem Starts.append (h : Starts p ts) : Starts p (ts ++ us) := by
  obtain ⟨t, vs, rfl, ht⟩ := h
  exact ⟨t, vs ++ us, rfl, ht⟩

theorem Starts.imp (h : Starts p ts) (himp : ∀ k, p k = true → q k = true) : Starts q ts := by
  obtain ⟨t, vs, rfl, ht⟩ := h
  exact ⟨t, vs, rfl, himp _ ht⟩

theorem Starts.ne_nil (h : Starts p ts) : ts ≠ [] := by
  obtain ⟨t, vs, rfl, -⟩ := h
  exact List.cons_ne_nil _ _

theorem EndsOpen.single (h : t.kind ≠ .semicolon) : EndsOpen [t] := ⟨[], t, rfl, h⟩

theorem EndsOpen.append (h : EndsOpen us) : EndsOpen (ts ++ us) := by
  obtain ⟨front, t, rfl, ht⟩ := h
  exact ⟨ts ++ front, t, (List.append_assoc _ _ _).symm, ht⟩

theorem EndsOpen.cons (h : EndsOpen us) : EndsOpen (t :: us) := by
  rw [← List.singleton_append]
  exact h.append

theorem Inside.nil : Inside [] := by simp [Inside]

@[simp] theorem inside_cons : Inside (t :: ts) ↔ t.kind ≠ .endOfInput ∧ Inside ts := by
  simp [Inside]

@[simp] theorem inside_append : Inside (ts ++ us) ↔ Inside ts ∧ Inside us := by
  simp only [Inside, List.mem_append]
  constructor
  · exact fun h => ⟨fun t ht => h t (.inl ht), fun t ht => h t (.inr ht)⟩
  · rintro ⟨hts, hus⟩ t (ht | ht)
    · exact hts t ht
    · exact hus t ht

@[simp] theorem inside_nil : Inside [] := Inside.nil

end Starts

/-! ### Phrases -/

/-- The tokens of an expression. -/
structure Phrase (ts : List Token) : Prop where
  starts : Starts Kind.startsExpression ts
  ends : EndsOpen ts
  inside : Inside ts
  /-- Only a single name can pass for a list of parameters. -/
  single : ∀ tail, arrowAhead (ts ++ tail) = true → ∃ name, ts = [name] ∧ name.kind = .identifier

/-- The tokens of an expression that is neither a lambda nor a step. -/
structure PlainPhrase (ts : List Token) : Prop extends Phrase ts where
  plain : ∀ (s : State) tail, s.rest = ts ++ tail → (∀ t ∈ tail.head?, t.kind.turns = false) →
    s.startsLambda = false ∧ s.startsStep = false

/-- Tokens that carry a phrase on. -/
structure Continuation (us : List Token) : Prop where
  starts : Starts Kind.carriesOn us
  ends : EndsOpen us
  inside : Inside us

section Phrases

variable {t : Token} {ts us : List Token}

/-- A token that is neither a name nor a comma nor a closing parenthesis ends the search for an
arrow. -/
theorem arrowAhead_eq_false (h : t.kind ≠ .identifier) (h' : t.kind ≠ .comma)
    (h'' : t.kind ≠ .rightParen) : arrowAhead (t :: ts) = false := by
  simp [arrowAhead, h, h', h'']

theorem Phrase.continued (h : Phrase ts) (hus : Continuation us) : Phrase (ts ++ us) := by
  refine ⟨h.starts.append, hus.ends.append, inside_append.mpr ⟨h.inside, hus.inside⟩, ?_⟩
  intro tail harrow
  rw [List.append_assoc] at harrow
  obtain ⟨name, rfl, hname⟩ := h.single _ harrow
  obtain ⟨t, vs, rfl, ht⟩ := hus.starts
  -- behind the single name stands `t`, which is no part of a list of parameters
  simp only [Kind.carriesOn, Bool.and_eq_true, decide_eq_true_eq] at ht
  simp [arrowAhead, hname, ht.1.1.1, ht.1.1.2, ht.1.2] at harrow

theorem PlainPhrase.continued (h : PlainPhrase ts) (hus : Continuation us) :
    PlainPhrase (ts ++ us) := by
  refine ⟨h.toPhrase.continued hus, fun s tail hrest _ => ?_⟩
  rw [List.append_assoc] at hrest
  refine h.plain s _ hrest ?_
  obtain ⟨t, vs, rfl, ht⟩ := hus.starts
  simp only [Kind.carriesOn, Bool.and_eq_true, Bool.not_eq_true'] at ht
  simpa using ht.2

/-- A phrase that starts with neither a name nor a parenthesis. -/
theorem PlainPhrase.of_head (h : t.kind.startsExpression = true) (hname : t.kind ≠ .identifier)
    (hparen : t.kind ≠ .leftParen) (hends : EndsOpen (t :: ts)) (hinside : Inside (t :: ts)) :
    PlainPhrase (t :: ts) := by
  have hcomma : t.kind ≠ .comma := fun hk => by simp [hk] at h; cases h
  have hclose : t.kind ≠ .rightParen := fun hk => by simp [hk] at h; cases h
  refine ⟨⟨.cons h, hends, hinside, fun tail harrow => ?_⟩, fun s tail hrest _ => ⟨?_, ?_⟩⟩
  · rw [List.cons_append, arrowAhead_eq_false hname hcomma hclose] at harrow
    cases harrow
  · simp [State.startsLambda, hrest, hparen]
  · cases hts : ts ++ tail <;> simp [State.startsStep, hrest, hname, hts]

theorem PlainPhrase.name (h : t.kind = .identifier) : PlainPhrase [t] := by
  refine ⟨⟨.cons (by rw [h]; rfl), .single (by simp [h]), by simp [h], fun _ _ => ⟨t, rfl, h⟩⟩, ?_⟩
  intro s tail hrest hturns
  refine ⟨by simp [State.startsLambda, hrest, h], ?_⟩
  cases tail with
  | nil => simp [State.startsStep, hrest]
  | cons u tail =>
    have hu := hturns u rfl
    simp only [Kind.turns, Bool.or_eq_false_iff, decide_eq_false_iff_not] at hu
    simp [State.startsStep, hrest, hu.1.2, hu.2]

/-- A phrase in parentheses. -/
theorem PlainPhrase.parens {opening closing : Token} (hopening : opening.kind = .leftParen)
    (h : Phrase ts) (hclosing : closing.kind = .rightParen) :
    PlainPhrase (opening :: (ts ++ [closing])) := by
  refine ⟨⟨.cons (by rw [hopening]; rfl), ?_, ?_, fun tail harrow => ?_⟩, ?_⟩
  · exact EndsOpen.cons (EndsOpen.append (.single (by simp [hclosing])))
  · simp [hopening, hclosing, h.inside]
  · rw [List.cons_append, arrowAhead_eq_false (by simp [hopening]) (by simp [hopening])
      (by simp [hopening])] at harrow
    cases harrow
  · intro s tail hrest hturns
    refine ⟨?_, ?_⟩
    · rw [Bool.eq_false_iff]
      intro hlambda
      simp only [State.startsLambda, hrest, List.cons_append, List.append_assoc,
        Bool.and_eq_true] at hlambda
      obtain ⟨name, rfl, hname⟩ := h.single _ hlambda.2
      cases tail with
      | nil => simp [arrowAhead, hname, hclosing] at hlambda
      | cons u tail =>
        have hu := hturns u rfl
        simp only [Kind.turns, Bool.or_eq_false_iff, decide_eq_false_iff_not] at hu
        simp [arrowAhead, hname, hclosing, hu.1.1] at hlambda
    · cases hts : ts ++ [closing] ++ tail <;> simp [State.startsStep, hrest, hopening, hts]

/-- A phrase with one more token in front that is no name. -/
theorem Phrase.lambda {opening : Token} (hopening : opening.kind = .leftParen)
    (hends : EndsOpen ts) (hinside : Inside ts) : Phrase (opening :: ts) := by
  refine ⟨.cons (by rw [hopening]; rfl), hends.cons, by simp [hopening, hinside], ?_⟩
  intro tail harrow
  rw [List.cons_append, arrowAhead_eq_false (by simp [hopening]) (by simp [hopening])
    (by simp [hopening])] at harrow
  cases harrow

theorem Continuation.cons (h : t.kind.carriesOn = true) (hinside : t.kind ≠ .endOfInput)
    (hts : Phrase ts) : Continuation (t :: ts) :=
  ⟨.cons h, hts.ends.cons, inside_cons.mpr ⟨hinside, hts.inside⟩⟩

end Phrases

theorem Names.ne_nil {ts names : List Token} (h : Names ts names) : names ≠ [] := by
  cases h <;> exact List.cons_ne_nil _ _

theorem inside_renderNames {ts names : List Token} (h : Names ts names) :
    Inside (renderNames names) := by
  induction h with
  | last hname => simp [renderNames, hname]
  | more hname _ others ih =>
    simp [renderNames_cons others.ne_nil, hname, ih, Token.plain]

theorem inside_renderParameters {ts names : List Token} (h : Parameters ts names) :
    Inside (renderNames names) := by
  obtain ⟨⟨-, rfl⟩ | h, -⟩ := h
  · exact Inside.nil
  · exact inside_renderNames h

/-! ### All symbols -/

/-- How the tree of a symbol is spelled. -/
def Spelled : (x : Symbol) → x.Tree → Prop
  | .declarations _, ss =>
    (ss = [] ∨ Starts Kind.opensDeclaration (renderStmts ss)) ∧ Inside (renderStmts ss)
  | .declaration _, s => Starts Kind.opensDeclaration s.render ∧ Inside s.render
  | .statement _ _, s => Starts Kind.opensStatement s.render ∧ Inside s.render
  | .methods, fs =>
    (fs = [] ∨ Starts (· = .identifier) (renderFunctions fs)) ∧ Inside (renderFunctions fs)
  | .function _, f => Inside f.render
  | .variableRest, s => Starts (· = .varKw) s.render ∧ Inside s.render
  | .expressionStatement, s => Starts Kind.startsExpression s.render ∧ Inside s.render
  | .loopStart, some s => Starts Kind.opensDeclaration s.render ∧ Inside s.render
  | .loopStart, none => True
  | .optionalExpression, some e => Phrase e.render
  | .optionalExpression, none => True
  | .expression, e => Phrase e.render
  | .assignment, e => PlainPhrase e.render
  | .conditional, e => PlainPhrase e.render
  | .level _, e => PlainPhrase e.render
  | .operand _, e => PlainPhrase e.render
  | .unary, e => PlainPhrase e.render
  | .call, e => PlainPhrase e.render ∧ Starts Kind.startsValue e.render
  | .primary, e => PlainPhrase e.render ∧ Starts Kind.startsValue e.render
  | .expressions, es =>
    (es = [] ∨ Starts Kind.startsExpression (renderExprs es)) ∧ Inside (renderExprs es)
  | .expressionList, es => Starts Kind.startsExpression (renderExprs es) ∧ Inside (renderExprs es)

/-- A result that stands as a declaration is marked with its keyword, never with an arrow. -/
private def Marked : (x : Symbol) → x.Tree → Prop
  | .declarations _, ss => ∀ keyword value?, .result keyword value? ∈ ss → keyword.kind ≠ .arrow
  | .declaration _, s => ∀ keyword value?, s = .result keyword value? → keyword.kind ≠ .arrow
  | .statement _ _, s => ∀ keyword value?, s = .result keyword value? → keyword.kind ≠ .arrow
  | .variableRest, s => ∀ keyword value?, s = .result keyword value? → keyword.kind ≠ .arrow
  | .expressionStatement, s => ∀ keyword value?, s = .result keyword value? → keyword.kind ≠ .arrow
  | _, _ => True

private theorem marked {x : Symbol} {ts : List Token} {t : x.Tree} (h : Derives x ts t) :
    Marked x t := by
  induction h with
  | moreDeclarations _ _ ihFirst ihOthers =>
    intro keyword value? hmem
    rcases List.mem_cons.mp hmem with heq | hmem
    · exact ihFirst keyword value? heq.symm
    · exact ihOthers keyword value? hmem
  | variableDeclaration _ _ ih => exact ih
  | statementDeclaration _ ih => exact ih
  | bareExpression _ ih => exact ih
  | result hkeyword =>
    rintro keyword value? heq
    cases heq
    simp [hkeyword]
  | @countedLoop _ _ _ _ _ _ _ _ _ _ start test step body =>
    intro keyword value? heq
    cases start <;> cases step <;> simp [Stmt.countedLoop] at heq
  | _ => simp [Marked]

theorem Derives.renderLambdaBody {inLoop : Bool} {ts : List Token} {body : List Stmt}
    (h : Derives (.declarations inLoop) ts body) :
    renderLambdaBody body = .plain .arrow "=>" :: .plain .leftBrace "\x7b" ::
      (renderStmts body ++ [.plain .rightBrace "\x7d"]) :=
  renderLambdaBody_block (marked h)

theorem constant?_token (value : Literal) : constant? value.token.kind = some value := by
  cases value with
  | boolean b => cases b <;> rfl
  | _ => rfl

theorem startsValue_token (value : Literal) : value.token.kind.startsValue = true := by
  simp [Kind.startsValue, constant?_token]

/-- The token of a constant stands for nothing else. -/
theorem kind_token_ne (value : Literal) {k : Kind} (h : constant? k = none) :
    value.token.kind ≠ k := by
  intro heq
  have := constant?_token value
  rw [heq, h] at this
  cases this

theorem plainPhrase_literal (value : Literal) : PlainPhrase (Expr.literal value).render := by
  refine .of_head ?_ (kind_token_ne value rfl) (kind_token_ne value rfl)
    (.single (kind_token_ne value rfl)) (by simpa using kind_token_ne value rfl)
  simp [Kind.startsExpression, startsValue_token]

theorem Starts.opensStatement {ts : List Token} (h : Starts Kind.startsExpression ts) :
    Starts Kind.opensStatement ts := h.imp fun k hk => by simp [Kind.opensStatement, hk]

theorem Starts.opensDeclaration {ts : List Token} (h : Starts Kind.opensStatement ts) :
    Starts Kind.opensDeclaration ts := h.imp fun k hk => by simp [Kind.opensDeclaration, hk]

/-- An assignment to a name. -/
theorem PlainPhrase.assign {name : Token} {ts : List Token} (hname : name.kind = .identifier)
    (h : Phrase ts) : PlainPhrase (name :: .plain .equal "=" :: ts) :=
  (PlainPhrase.name hname).continued (.cons rfl (by simp [Token.plain]) h)

theorem plainPhrase_step {name step : Token} {readId assignId : Nat}
    (hname : name.kind = .identifier) :
    PlainPhrase (Expr.step readId assignId name (stepOperator step)).render := by
  refine .assign hname (((PlainPhrase.name hname).continued ?_).toPhrase)
  refine .cons ?_ ?_ (plainPhrase_literal _).toPhrase
  · unfold stepOperator
    split <;> rfl
  · unfold stepOperator
    split <;> simp

theorem render_join (l : Level) (left right : Expr) (operator : Token) :
    (l.join left operator right).render = left.render ++ operator :: right.render := by
  cases l <;> rfl

theorem carriesOn_of_operators {l : Level} {k : Kind} (h : l.operators k = true) :
    k.carriesOn = true ∧ k ≠ .endOfInput := by
  cases l <;> simp only [Level.operators, Bool.or_eq_true, decide_eq_true_eq] at h
  case disjunction | conjunction => subst h; simp [Kind.carriesOn, Kind.turns]
  case equality | sum => rcases h with rfl | rfl <;> simp [Kind.carriesOn, Kind.turns]
  case product => rcases h with (rfl | rfl) | rfl <;> simp [Kind.carriesOn, Kind.turns]
  case comparison => rcases h with ((rfl | rfl) | rfl) | rfl <;> simp [Kind.carriesOn, Kind.turns]

theorem Derives.expressionList_ne_nil {ts : List Token} {es : List Expr}
    (h : Derives .expressionList ts es) : es ≠ [] := by
  cases h <;> exact List.cons_ne_nil _ _

/-- A counted loop without a start. -/
theorem spelled_loop {inLoop closed : Bool} {test step : Option Expr} {body : Stmt}
    (htest : Spelled .optionalExpression test) (hstep : Spelled .optionalExpression step)
    (hbody : Spelled (.statement true closed) body) :
    Spelled (.statement inLoop closed) (.countedLoop none test step body) := by
  have hinside : Inside (test.getD (.literal (.boolean true))).render := by
    cases test with
    | none => simp [Literal.token, Token.plain]
    | some test => exact Phrase.inside htest
  cases step with
  | none => exact ⟨.cons rfl, by simp [Stmt.countedLoop, Token.plain, hinside, hbody.2]⟩
  | some step =>
    refine ⟨.cons rfl, ?_⟩
    simp [Stmt.countedLoop, Token.plain, hinside, Phrase.inside hstep, hbody.2]

theorem Derives.spelled {x : Symbol} {ts : List Token} {t : x.Tree} (h : Derives x ts t) :
    Spelled x t := by
  induction h with
  | noDeclarations => exact ⟨.inl rfl, Inside.nil⟩
  | moreDeclarations _ _ ihFirst ihOthers =>
    exact ⟨.inr ihFirst.1.append, inside_append.mpr ⟨ihFirst.2, ihOthers.2⟩⟩
  | classDeclaration _ hname _ _ _ ih =>
    exact ⟨.cons rfl, by simp [hname, ih.2, Token.plain]⟩
  | functionDeclaration _ hname hdecl ih =>
    cases hdecl
    exact ⟨.cons rfl, by simpa [hname, Token.plain, Spelled] using ih⟩
  | variableDeclaration _ _ ih =>
    exact ⟨ih.1.imp fun k hk => by simp_all [Kind.opensDeclaration], ih.2⟩
  | statementDeclaration _ ih => exact ⟨ih.1.opensDeclaration, ih.2⟩
  | noMethods => exact ⟨.inl rfl, Inside.nil⟩
  | moreMethods _ hname hmethod _ ihMethod ihOthers =>
    cases hmethod
    refine ⟨.inr (.cons (by simp [hname])), ?_⟩
    simpa [hname, Token.plain, Spelled, ihOthers.2] using ihMethod
  | function _ hparams _ _ _ _ ih =>
    simp [Spelled, Token.plain, inside_renderParameters hparams, ih.2]
  | variableOnly hname _ => exact ⟨.cons rfl, by simp [hname, Token.plain]⟩
  | variableValue hname _ _ _ ih =>
    exact ⟨.cons rfl, by simp [hname, Token.plain, Phrase.inside ih]⟩
  | print _ _ _ ih => exact ⟨.cons rfl, by simp [Token.plain, Phrase.inside ih]⟩
  | ifOnly _ _ _ _ _ ihTest ihYes =>
    exact ⟨.cons rfl, by simp [Token.plain, Phrase.inside ihTest, ihYes.2]⟩
  | ifElse _ _ _ _ _ _ _ ihTest ihYes ihNo =>
    exact ⟨.cons rfl, by simp [Token.plain, Phrase.inside ihTest, ihYes.2, ihNo.2]⟩
  | block _ _ _ ih =>
    exact ⟨.cons rfl, by simp [Token.plain, ih.2]⟩
  | whileLoop _ _ _ _ _ ihTest ihBody =>
    exact ⟨.cons rfl, by simp [Token.plain, Phrase.inside ihTest, ihBody.2]⟩
  | @countedLoop inLoop _ _ _ _ _ _ _ _ _ start _ _ _ _ _ _ _ _ _ _ _ ihStart ihTest ihStep ihBody =>
    have hloop := @spelled_loop inLoop _ _ _ _ ihTest ihStep ihBody
    cases start with
    | none => exact hloop
    | some start =>
      rw [Spelled, render_countedLoop_start]
      exact ⟨.cons rfl, by simp [Token.plain, ihStart.2, hloop.2]⟩
  | exitLoop hkeyword _ =>
    exact ⟨.cons (by simp [hkeyword, Kind.opensStatement]), by simp [hkeyword, Token.plain]⟩
  | nextIteration hkeyword _ =>
    exact ⟨.cons (by simp [hkeyword, Kind.opensStatement]), by simp [hkeyword, Token.plain]⟩
  | @result _ _ _ _ _ value? hkeyword _ _ ih =>
    cases value? with
    | none =>
      exact ⟨.cons (by simp [hkeyword, Kind.opensStatement]), by simp [hkeyword, Token.plain]⟩
    | some value =>
      refine ⟨.cons (by simp [hkeyword, Kind.opensStatement]), ?_⟩
      simp [hkeyword, Token.plain, Phrase.inside ih]
  | bareExpression _ ih => exact ⟨ih.1.opensStatement, ih.2⟩
  | expressionStatement _ _ ih =>
    exact ⟨(Phrase.starts ih).append, by simp [Token.plain, Phrase.inside ih]⟩
  | noStart => trivial
  | startVariable _ _ ih => exact ⟨ih.1.imp fun k hk => by simp_all [Kind.opensDeclaration], ih.2⟩
  | startExpression _ ih => exact ⟨ih.1.opensStatement.opensDeclaration, ih.2⟩
  | noExpression => trivial
  | someExpression _ ih => exact ih
  | step hname _ _ => exact (plainPhrase_step hname).toPhrase
  | lambdaBlock _ hparams _ _ _ hbody _ ih =>
    rw [Spelled, Expr.render, hbody.renderLambdaBody]
    refine .lambda rfl ?_ (by simp [Token.plain, inside_renderParameters hparams, ih.2])
    exact EndsOpen.append (.cons (.cons (.cons (.append (.single (by simp [Token.plain]))))))
  | lambdaValue _ hparams _ harrow _ ih =>
    have hvalue : Phrase _ := ih
    rw [Spelled, Expr.render, renderLambdaBody_value harrow]
    refine .lambda rfl (.append (.cons (.cons hvalue.ends))) ?_
    simp [Token.plain, inside_renderParameters hparams, harrow, hvalue.inside]
  | assignmentExpression _ ih => exact PlainPhrase.toPhrase ih
  | assignName hname _ _ ih => exact .assign hname (PlainPhrase.toPhrase ih)
  | assignProperty _ _ hname _ _ ihObject ihValue =>
    refine ihObject.1.continued ⟨.cons rfl, ?_, ?_⟩
    · exact .cons (.cons (.cons (PlainPhrase.toPhrase ihValue).ends))
    · simp [Token.plain, hname, (PlainPhrase.toPhrase ihValue).inside]
  | assignEntry _ hbracket _ _ _ _ ihBase ihKey ihValue =>
    refine ihBase.1.continued ⟨.cons (by rw [hbracket]; rfl), ?_, ?_⟩
    · exact .cons (.append (.cons (.cons (PlainPhrase.toPhrase ihValue).ends)))
    · simp [Token.plain, hbracket, Phrase.inside ihKey, (PlainPhrase.toPhrase ihValue).inside]
  | conditionalAssignment _ ih => exact ih
  | choice _ _ _ _ _ ihTest ihYes ihNo =>
    refine PlainPhrase.continued ihTest ⟨.cons rfl, ?_, ?_⟩
    · exact .cons (.append (.cons (PlainPhrase.toPhrase ihNo).ends))
    · simp [Token.plain, Phrase.inside ihYes, (PlainPhrase.toPhrase ihNo).inside]
  | noChoice _ ih => exact ih
  | join _ hoperator _ ihLeft ihRight =>
    rw [Spelled, render_join]
    obtain ⟨hcarries, hend⟩ := carriesOn_of_operators hoperator
    exact PlainPhrase.continued ihLeft (.cons hcarries hend (PlainPhrase.toPhrase ihRight))
  | firstOperand _ ih => exact ih
  | tighterOperand _ _ ih => exact ih
  | unaryOperand _ _ ih => exact ih
  | unary hoperator _ ih =>
    have hoperand : Phrase _ := PlainPhrase.toPhrase ih
    rcases hoperator with hk | hk
    all_goals
      exact .of_head (by rw [hk]; rfl) (by simp [hk]) (by simp [hk]) hoperand.ends.cons
        (by simp [hk, hoperand.inside])
  | plain _ ih => exact ih.1
  | call _ _ _ _ hclosing ihCallee ihArguments =>
    refine ⟨ihCallee.1.continued ⟨.cons rfl, ?_, ?_⟩, ihCallee.2.append⟩
    · exact .cons (.append (.single (by simp [hclosing])))
    · simp [Token.plain, hclosing, ihArguments.2]
  | property _ _ hname ih =>
    refine ⟨ih.1.continued ⟨.cons rfl, ?_, ?_⟩, ih.2.append⟩
    · exact .cons (.single (by simp [hname]))
    · simp [Token.plain, hname]
  | entry _ hbracket _ _ ihBase ihKey =>
    refine ⟨ihBase.1.continued ⟨.cons (by rw [hbracket]; rfl), ?_, ?_⟩, ihBase.2.append⟩
    · exact .cons (.append (.single (by simp [Token.plain])))
    · simp [Token.plain, hbracket, Phrase.inside ihKey]
  | noSuffix _ ih => exact ih
  | @constant _ value _ => exact ⟨plainPhrase_literal value, .cons (startsValue_token value)⟩
  | receiver hkeyword =>
    refine ⟨.of_head (by rw [hkeyword]; rfl) (by simp [hkeyword]) (by simp [hkeyword])
      (.single (by simp [hkeyword])) (by simp [hkeyword]), .cons (by rw [hkeyword]; rfl)⟩
  | name hname => exact ⟨.name hname, .cons (by rw [hname]; rfl)⟩
  | group _ _ _ ih => exact ⟨.parens rfl ih rfl, .cons rfl⟩
  | array hbracket _ _ ih =>
    refine ⟨.of_head (by rw [hbracket]; rfl) (by simp [hbracket]) (by simp [hbracket]) ?_ ?_,
      .cons (by rw [hbracket]; rfl)⟩
    · exact .cons (.append (.single (by simp [Token.plain])))
    · simp [Token.plain, hbracket, ih.2]
  | noExpressions => exact ⟨.inl rfl, Inside.nil⟩
  | someExpressions _ ih => exact ⟨.inr ih.1, ih.2⟩
  | lastExpression _ ih =>
    refine ⟨(Phrase.starts ih).append, ?_⟩
    simpa [renderExprs, renderMoreExprs] using Phrase.inside ih
  | moreExpressions _ _ hes ihFirst ihOthers =>
    rw [Spelled, renderExprs_cons hes.expressionList_ne_nil]
    exact ⟨(Phrase.starts ihFirst).append, by simp [Token.plain, Phrase.inside ihFirst, ihOthers.2]⟩

end Grammar

end Roteiro
