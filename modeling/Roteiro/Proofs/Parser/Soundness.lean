import Roteiro.Parser.Program
import Roteiro.Proofs.Grammar
import Roteiro.Proofs.Parser.Reading
import Roteiro.Proofs.Tree.Numbers

/-!
# What the parser accepts

Every rule of the parser, run without a complaint, reads the tokens of its symbol and gives their
tree; the rules are taken together, by induction on the fuel. A rule that goes on from what was
read before it (the operators of a level, the suffixes of a value) extends a derivation that ends
where the rule starts.

Along with the derivation goes the numbering of the occurrences: a rule uses up the numbers from
its first state to its last one, each of them once.

* `parseProgram_derives`: an accepted program is the tree of a derivation of all the tokens before
  the end marker.
-/

namespace Roteiro

namespace Grammar

/-! ### Derivations -/

/-- Whether an expression is built without an operator around it. -/
def isPostfix : Expr → Bool
  | .unary _ _ => false
  | .binary _ _ _ => false
  | .logical _ _ _ => false
  | .conditional _ _ _ => false
  | _ => true

/-- The symbols of expressions are never spelled by nothing, and an expression without an operator
around it is spelled by a call wherever it stands. -/
private def Facts : (x : Symbol) → List Token → x.Tree → Prop
  | .expression, ts, _ => ts ≠ []
  | .assignment, ts, _ => ts ≠ []
  | .conditional, ts, e => ts ≠ [] ∧ (isPostfix e = true → Derives .call ts e)
  | .level _, ts, e => ts ≠ [] ∧ (isPostfix e = true → Derives .call ts e)
  | .operand _, ts, e => ts ≠ [] ∧ (isPostfix e = true → Derives .call ts e)
  | .unary, ts, e => ts ≠ [] ∧ (isPostfix e = true → Derives .call ts e)
  | .call, ts, _ => ts ≠ []
  | .primary, ts, _ => ts ≠ []
  | _, _, _ => True

private theorem facts {x : Symbol} {ts : List Token} {t : x.Tree} (h : Derives x ts t) :
    Facts x ts t := by
  induction h with
  | assignmentExpression _ ih => exact ih
  | conditionalAssignment _ ih => exact ih.1
  | choice => exact ⟨by simp, by simp [isPostfix]⟩
  | noChoice _ ih => exact ih
  | @join l =>
    refine ⟨by simp, ?_⟩
    cases l <;> simp [Parser.Level.join, isPostfix]
  | firstOperand _ ih => exact ih
  | tighterOperand _ _ ih => exact ih
  | unaryOperand _ _ ih => exact ih
  | unary => exact ⟨by simp, by simp [isPostfix]⟩
  | plain h ih => exact ⟨ih, fun _ => h⟩
  | noSuffix _ ih => exact ih
  | _ => simp [Facts]

theorem Derives.expression_ne_nil {ts : List Token} {e : Expr} (h : Derives .expression ts e) :
    ts ≠ [] := facts h

theorem Derives.call_of_conditional {ts : List Token} {e : Expr} (h : Derives .conditional ts e)
    (he : isPostfix e = true) : Derives .call ts e := (facts h).2 he

/-- A target, the sign behind it and a value spell an assignment. -/
theorem Derives.assigned {ts us : List Token} {equal : Token} {target value e : Expr}
    (htarget : Derives .conditional ts target) (hequal : equal.kind = .equal)
    (hvalue : Derives .assignment us value) (he : target.assigned? value = some e) :
    Derives .assignment (ts ++ equal :: us) e := by
  unfold Expr.assigned? at he
  split at he
  · cases he
    cases htarget.call_of_conditional rfl with
    | noSuffix h =>
      cases h with
      | name hname => exact .assignName hname hequal hvalue
  · cases he
    cases htarget.call_of_conditional rfl with
    | property hobject hdot hname =>
      simpa using Derives.assignProperty hobject hdot hname hequal hvalue
    | noSuffix h => cases h
  · cases he
    cases htarget.call_of_conditional rfl with
    | entry hbase hbracket hkey hclosing =>
      simpa using Derives.assignEntry hbase hbracket hkey hclosing hequal hvalue
    | noSuffix h => cases h
  · cases he

theorem ids_assigned? {target value e : Expr} (he : target.assigned? value = some e) :
    e.ids = target.ids ++ value.ids := by
  unfold Expr.assigned? at he
  split at he <;> cases he <;> simp

/-- The numbers in the tree of a symbol. -/
def Symbol.ids : (x : Symbol) → x.Tree → List Nat
  | declarations _, ss => idsOfStmts ss
  | declaration _, s => s.ids
  | statement _ _, s => s.ids
  | methods, fs => idsOfFunctions fs
  | function _, f => f.ids
  | variableRest, s => s.ids
  | expressionStatement, s => s.ids
  | loopStart, s? => (s?.map Stmt.ids).getD []
  | optionalExpression, e? => (e?.map Expr.ids).getD []
  | expression, e => e.ids
  | assignment, e => e.ids
  | conditional, e => e.ids
  | level _, e => e.ids
  | operand _, e => e.ids
  | unary, e => e.ids
  | call, e => e.ids
  | primary, e => e.ids
  | expressions, es => idsOfExprs es
  | expressionList, es => idsOfExprs es

end Grammar

namespace Parser

open Grammar

/-- Whether a loop of the present function is open. -/
def State.inLoop (s : State) : Bool := s.loops ≠ 0

theorem State.Leads.inLoop {s s₁ : State} (h : s.Leads s₁) : s₁.inLoop = s.inLoop := by
  rw [State.inLoop, State.inLoop, h.loops]

/-- The tokens read between two states spell a tree of the symbol, and its occurrences have the
numbers between the two states. -/
structure Builds (x : Symbol) (s : State) (read : List Token) (t : x.Tree) (s' : State) : Prop where
  derives : Derives x read t
  numbered : Numbered s.nextId s'.nextId (x.ids t)

/-- A rule that goes on behind the tree `e`: it extends the derivation of `e`. -/
def Extends (x : Symbol) (e : x.Tree) (s : State) (read : List Token) (t : x.Tree) (s' : State) :
    Prop :=
  ∀ ⦃ts lo⦄, Derives x ts e → Numbered lo s.nextId (x.ids e) →
    Derives x (ts ++ read) t ∧ Numbered lo s'.nextId (x.ids t)

/-- The rules with so much fuel build the trees of their symbols. -/
structure RulesBuild (fuel : Nat) : Prop where
  declarations : ∀ inBlock s, s.Proper → Meets (declarations fuel inBlock) s fun read ss s' =>
    Builds (.declarations s.inLoop) s read ss s' ∧ (inBlock = false → s'.rest = [])
  declaration : ∀ s, s.Proper →
    Meets (declaration fuel) s (Builds (.declaration s.inLoop) s)
  methodList : ∀ s, s.Proper → Meets (methodList fuel) s (Builds .methods s)
  functionRest : ∀ name s, s.Proper →
    Meets (functionRest fuel name) s (Builds (.function (some name)) s)
  variableRest : ∀ s, s.Proper → Meets (variableRest fuel) s (Builds .variableRest s)
  block : ∀ s, s.Proper → Meets (block fuel) s fun read ss s' => ∃ ts closing,
    read = ts ++ [closing] ∧ closing.kind = .rightBrace ∧ Builds (.declarations s.inLoop) s ts ss s'
  statement : ∀ s, s.Proper → Meets (statement fuel) s fun read t s' =>
    ∀ closed, (closed = true → s'.startsWith .elseKw = true) →
      Builds (.statement s.inLoop closed) s read t s'
  expressionStatement : ∀ s, s.Proper →
    Meets (expressionStatement fuel) s (Builds .expressionStatement s)
  countedLoop : ∀ s, s.Proper → Meets (countedLoop fuel) s fun read t s' =>
    ∀ closed keyword, (closed = true → s'.startsWith .elseKw = true) → keyword.kind = .forKw →
      Builds (.statement s.inLoop closed) s (keyword :: read) t s'
  loopStart : ∀ s, s.Proper → Meets (loopStart fuel) s (Builds .loopStart s)
  optionalExpression : ∀ closing s, s.Proper →
    Meets (optionalExpression fuel closing) s (Builds .optionalExpression s)
  expression : ∀ s, s.Proper → Meets (expression fuel) s (Builds .expression s)
  lambda : ∀ s, s.Proper → s.startsLambda = true →
    Meets (lambda fuel) s (Builds .expression s)
  assignment : ∀ s, s.Proper → Meets (assignment fuel) s (Builds .assignment s)
  conditional : ∀ s, s.Proper → Meets (conditional fuel) s (Builds .conditional s)
  level : ∀ l s, s.Proper → Meets (level fuel l) s (Builds (.level l) s)
  levelRest : ∀ l left s, s.Proper → Meets (levelRest fuel l left) s (Extends (.level l) left s)
  operand : ∀ l s, s.Proper → Meets (operand fuel l) s (Builds (.operand l) s)
  unary : ∀ s, s.Proper → Meets (unary fuel) s (Builds .unary s)
  suffixes : ∀ value s, s.Proper → Meets (suffixes fuel value) s (Extends .call value s)
  expressions : ∀ closing limited s, s.Proper →
    Meets (expressions fuel closing limited) s fun read es s' =>
      Builds .expressions s read es s' ∧ (limited = true → es.length ≤ 255)
  expressionList : ∀ limited count s, s.Proper →
    Meets (expressionList fuel limited count) s fun read es s' =>
      Builds .expressionList s read es s' ∧ (limited = true → count + es.length ≤ 255)
  primary : ∀ s, s.Proper → Meets (primary fuel) s (Builds .primary s)

theorem rulesBuild_zero : RulesBuild 0 where
  declarations _ _ _ := meets_throw _
  declaration _ _ := meets_throw _
  methodList _ _ := meets_throw _
  functionRest _ _ _ := meets_throw _
  variableRest _ _ := meets_throw _
  block _ _ := meets_throw _
  statement _ _ := meets_throw _
  expressionStatement _ _ := meets_throw _
  countedLoop _ _ := meets_throw _
  loopStart _ _ := meets_throw _
  optionalExpression _ _ _ := meets_throw _
  expression _ _ := meets_throw _
  lambda _ _ _ := meets_throw _
  assignment _ _ := meets_throw _
  conditional _ _ := meets_throw _
  level _ _ _ := meets_throw _
  levelRest _ _ _ _ := meets_throw _
  operand _ _ _ := meets_throw _
  unary _ _ := meets_throw _
  suffixes _ _ _ := meets_throw _
  expressions _ _ _ _ := meets_throw _
  expressionList _ _ _ _ := meets_throw _
  primary _ _ := meets_throw _

/-! ### Rules without a circle -/

/-- Parameter names, of which `count` have been read before. -/
theorem meets_parameterList (fuel count : Nat) (s : State) :
    Meets (parameterList fuel count) s fun read names s' =>
      Names read names ∧ count + names.length ≤ 255 ∧ s'.nextId = s.nextId := by
  induction fuel generalizing count s with
  | zero => exact meets_throw _
  | succ fuel ih =>
    unfold parameterList
    have hlist : ∀ s₁, s.Leads s₁ → Meets (do
        let name ← expect .identifier .expectedParameterName
        if ← accept .comma then
          let names ← parameterList fuel (count + 1)
          return name :: names
        else return [name]) s₁ fun read names s' =>
          Names read names ∧ (count < 255 → count + names.length ≤ 255) ∧
            s'.nextId = s₁.nextId := by
      intro s₁ _
      refine Meets.bind (meets_expect _ _) fun name s₂ _ => ?_
      refine Meets.bind (meets_accept _) fun taken s₃ _ => ?_
      cases taken with
      | true =>
        refine Meets.bind (ih (count + 1) s₃) fun names s₄ _ => Meets.pure ?_
        rintro r₃ - ⟨hnames, hlimit, hn₃⟩ r₂ - ⟨hn₂, comma, rfl, hcomma⟩ r₁ - ⟨rfl, hname, hn₁⟩
        refine ⟨by simpa using Names.more hname hcomma hnames, fun _ => ?_, by omega⟩
        rw [List.length_cons]
        omega
      | false =>
        refine Meets.pure ?_
        rintro r₂ - ⟨hn₂, rfl, -⟩ r₁ - ⟨rfl, hname, hn₁⟩
        exact ⟨by simpa using Names.last hname, fun h => h, by omega⟩
    refine (Meets.unless (meets_complainNext _) hlist).mono ?_
    rintro read names s' - - ⟨hcount, hnames, hlimit, hn⟩
    exact ⟨hnames, hlimit (Nat.lt_of_not_le hcount), hn⟩

theorem meets_parameters (fuel : Nat) (s : State) :
    Meets (parameters fuel) s fun read names s' =>
      Parameters read names ∧ s'.nextId = s.nextId := by
  unfold parameters
  refine Meets.check ?_
  split
  · exact Meets.pure ⟨⟨.inl ⟨rfl, rfl⟩, Nat.zero_le _⟩, rfl⟩
  · refine (meets_parameterList fuel 0 s).mono ?_
    rintro read names s' - - ⟨hnames, hlimit, hn⟩
    exact ⟨⟨.inr hnames, by omega⟩, hn⟩

/-- The end of a statement. A semicolon that was read before can only be the last token of the
value. -/
theorem meets_terminate (value? : Option Expr) (cause : Cause) (s : State) :
    Meets (terminate value? cause) s fun read _ s' => s'.nextId = s.nextId ∧
      ∀ ts, (value?.isSome = true → ts.getLast? = s.last) →
        (value? = none → s.last.any (·.kind = .semicolon) = false) → Ends ts value? read := by
  unfold terminate
  refine Meets.get ?_
  split
  · next hlast =>
    refine Meets.pure ⟨rfl, fun ts hsome hnone => ?_⟩
    cases value? with
    | none =>
      rw [hnone rfl] at hlast
      cases hlast
    | some value =>
      obtain ⟨t, ht, hkind⟩ := (Option.any_eq_true _ _).mp hlast
      exact .taken ((hsome rfl).trans ht) (of_decide_eq_true hkind)
  · split
    · next hlambda =>
      obtain ⟨value, rfl, hvalue⟩ := (Option.any_eq_true _ _).mp hlambda
      refine Meets.bind (meets_accept _) fun taken s₁ _ => Meets.pure ?_
      rintro read - ⟨hn, htaken⟩
      refine ⟨hn, fun ts _ _ => ?_⟩
      cases taken with
      | true =>
        obtain ⟨t, rfl, hkind⟩ := htaken
        exact .written hkind
      | false =>
        obtain ⟨rfl, -⟩ := htaken
        cases value with
        | lambda decl => exact .behindLambda
        | _ => cases hvalue
    · refine Meets.bind (meets_expect _ _) fun t s₁ _ => Meets.pure ?_
      rintro read - ⟨rfl, hkind, hn⟩
      exact ⟨hn, fun ts _ _ => .written hkind⟩

/-- The end of a statement right behind the tokens of its value. -/
theorem Ends.of_terminate {s s₁ : State} {ts ending : List Token} {value : Expr}
    (hts : Derives .expression ts value) (hread : s.Reads ts s₁)
    (h : ∀ ts, ((some value).isSome = true → ts.getLast? = s₁.last) →
        (some value = none → s₁.last.any (·.kind = .semicolon) = false) →
        Ends ts (some value) ending) : Ends ts (some value) ending := by
  refine h ts (fun _ => ?_) (fun hnone => by cases hnone)
  rw [hread.last, List.getLast?_eq_some_getLast hts.expression_ne_nil, Option.some_or]

theorem meets_countingStep {s : State} (h : s.startsStep = true) :
    Meets countingStep s (Builds .expression s) := by
  obtain ⟨name, step, rest, hrest, hname, hstep⟩ : ∃ name step rest, s.rest = name :: step :: rest ∧
      name.kind = .identifier ∧ (step.kind = .plusPlus ∨ step.kind = .minusMinus) := by
    unfold State.startsStep at h
    split at h
    · next name step rest hrest =>
      simp only [Bool.and_eq_true, Bool.or_eq_true, decide_eq_true_eq] at h
      exact ⟨name, step, rest, hrest, h⟩
    · cases h
  have hrest₁ : s.advance.rest = step :: rest := State.rest_advance hrest
  unfold countingStep
  refine Meets.take hrest (Meets.take hrest₁ ?_)
  refine Meets.bind (meets_accept _) fun taken s₁ _ => ?_
  refine Meets.bind meets_freshId fun readId s₂ _ => ?_
  refine Meets.bind meets_freshId fun assignId s₃ _ => Meets.pure ?_
  rintro r₃ - ⟨rfl, rfl, hn₃⟩ r₂ - ⟨rfl, rfl, hn₂⟩ r₁ - ⟨hn₁, htaken⟩
  rw [State.nextId_advance, State.nextId_advance] at hn₁
  refine ⟨?_, ?_⟩
  · refine .step hname hstep ?_
    cases taken with
    | true => exact .inr (by simpa using htaken)
    | false => exact .inl (by simpa using htaken.1)
  · have hnumbered := (Numbered.single s.nextId).append (Numbered.single (s.nextId + 1))
    rw [hn₃, hn₂, hn₁]
    exact hnumbered.perm (List.Perm.swap _ _ [])

theorem meets_loopExit (keyword : Token) (cause : Cause) (build : Token → Stmt) (s : State) :
    Meets (loopExit keyword cause build) s fun read t s' => s'.nextId = s.nextId ∧
      s.inLoop = true ∧ t = build keyword ∧ ∃ semicolon, read = [semicolon] ∧
        semicolon.kind = .semicolon := by
  unfold loopExit
  refine Meets.get ?_
  refine (Meets.unless (meets_complain _ _) (Q := fun s₁ read t s' =>
    s'.nextId = s₁.nextId ∧ t = build keyword ∧ ∃ semicolon, read = [semicolon] ∧
      semicolon.kind = .semicolon) fun s₁ _ => ?_).mono ?_
  · refine Meets.bind (meets_expect _ _) fun t s₂ _ => Meets.pure ?_
    rintro read - ⟨rfl, hkind, hn⟩
    exact ⟨hn, rfl, t, rfl, hkind⟩
  · rintro read t s' - - ⟨hloops, hn, ht⟩
    exact ⟨hn, by simpa [State.inLoop] using hloops, ht⟩

theorem ids_join (l : Level) (left : Expr) (operator : Token) (right : Expr) :
    (l.join left operator right).ids = left.ids ++ right.ids := by
  cases l <;> simp [Level.join]

/-! ### Rules in a circle -/

section Rules

variable {fuel : Nat} {s : State} (ih : RulesBuild fuel)

include ih

theorem declarations_builds (inBlock : Bool) (hs : s.Proper) :
    Meets (declarations (fuel + 1) inBlock) s fun read ss s' =>
      Builds (.declarations s.inLoop) s read ss s' ∧ (inBlock = false → s'.rest = []) := by
  unfold declarations
  refine Meets.atEnd ?_
  split
  · next hend =>
    refine Meets.pure ⟨⟨.noDeclarations, .nil _⟩, fun _ => ?_⟩
    simpa [State.atEnd] using hend
  · refine Meets.check ?_
    split
    · next hclosing =>
      refine Meets.pure ⟨⟨.noDeclarations, .nil _⟩, fun hblock => ?_⟩
      simp [hblock] at hclosing
    · refine Meets.bind (meets_recover (ih.declaration s hs)) fun first? s₁ h₁ => ?_
      refine Meets.bind (ih.declarations inBlock s₁ (h₁.proper hs)) fun others s₂ _ => Meets.pure ?_
      rintro us - ⟨hothers, hend⟩ ts - ⟨first, rfl, hfirst⟩
      rw [h₁.inLoop] at hothers
      refine ⟨⟨?_, hfirst.numbered.append hothers.numbered⟩, hend⟩
      simpa using Derives.moreDeclarations hfirst.derives hothers.derives

theorem methodList_builds (hs : s.Proper) :
    Meets (methodList (fuel + 1)) s (Builds .methods s) := by
  unfold methodList
  refine Meets.atEnd ?_
  split
  · exact Meets.pure ⟨.noMethods, .nil _⟩
  · refine Meets.check ?_
    split
    · exact Meets.pure ⟨.noMethods, .nil _⟩
    · refine Meets.bind (meets_accept _) fun taken s₁ h₁ => ?_
      refine Meets.bind (meets_expect _ _) fun name s₂ h₂ => ?_
      have hs₂ := h₂.proper (h₁.proper hs)
      refine Meets.bind (ih.functionRest name s₂ hs₂) fun method s₃ h₃ => ?_
      refine Meets.bind (ih.methodList s₃ (h₃.proper hs₂)) fun others s₄ _ => Meets.pure ?_
      rintro us - hothers ts - hmethod r₂ - ⟨rfl, hname, hn₂⟩ r₁ - ⟨hn₁, htaken⟩
      refine ⟨?_, ?_⟩
      · have hfront : r₁ = [] ∨ ∃ t, r₁ = [t] ∧ t.kind = .functionKw := by
          cases taken with
          | true => exact .inr htaken
          | false => exact .inl htaken.1
        simpa using Derives.moreMethods hfront hname hmethod.derives hothers.derives
      · rw [← hn₁, ← hn₂]
        exact hmethod.numbered.append hothers.numbered

/-- The body of a function is read as if no loop were open. -/
theorem functionBody_builds (hs : s.Proper) :
    Meets (withLoops (fun _ => 0) (block fuel)) s fun read ss s' => ∃ ts closing,
      read = ts ++ [closing] ∧ closing.kind = .rightBrace ∧
        Builds (.declarations false) s ts ss s' := by
  refine meets_withLoops ((ih.block { s with loops := 0 } hs).mono ?_)
  rintro read ss s₁ - - ⟨ts, closing, hread, hclosing, hbody⟩
  exact ⟨ts, closing, hread, hclosing, hbody.derives, hbody.numbered⟩

/-- The body of a loop is read with one more loop open. -/
theorem loopBody_builds (hs : s.Proper) :
    Meets (withLoops (· + 1) (statement fuel)) s fun read t s' =>
      ∀ closed, (closed = true → s'.startsWith .elseKw = true) →
        Builds (.statement true closed) s read t s' := by
  refine meets_withLoops ((ih.statement { s with loops := s.loops + 1 } hs).mono ?_)
  intro read t s₁ _ _ hbody closed hclosed
  exact ⟨(hbody closed hclosed).derives, (hbody closed hclosed).numbered⟩

theorem functionRest_builds (name : Token) (hs : s.Proper) :
    Meets (functionRest (fuel + 1) name) s (Builds (.function (some name)) s) := by
  unfold functionRest
  refine Meets.bind (meets_expect _ _) fun openParen s₁ h₁ => ?_
  refine Meets.bind (meets_parameters _ _) fun params s₂ h₂ => ?_
  refine Meets.bind (meets_expect _ _) fun closeParen s₃ h₃ => ?_
  refine Meets.bind (meets_expect _ _) fun opening s₄ h₄ => ?_
  have hs₄ : s₄.Proper := h₄.proper (h₃.proper (h₂.proper (h₁.proper hs)))
  refine Meets.bind (functionBody_builds ih hs₄) fun body s₅ _ => Meets.pure ?_
  rintro r₅ - ⟨ts, closing, rfl, hclosing, hbody⟩ r₄ - ⟨rfl, hopening, hn₄⟩
    r₃ - ⟨rfl, hcloseParen, hn₃⟩ ps - ⟨hparams, hn₂⟩ r₁ - ⟨rfl, hopenParen, hn₁⟩
  refine ⟨?_, ?_⟩
  · simpa using Derives.function hopenParen hparams hcloseParen hopening hbody.derives hclosing
  · rw [← hn₁, ← hn₂, ← hn₃, ← hn₄]
    exact hbody.numbered

theorem declaration_builds (hs : s.Proper) :
    Meets (declaration (fuel + 1)) s (Builds (.declaration s.inLoop) s) := by
  unfold declaration
  refine Meets.peek ?_
  split
  · next hkind =>
    refine Meets.bind (meets_takeToken hs (by simp [hkind])) fun keyword s₁ h₁ => ?_
    refine Meets.bind (meets_expect _ _) fun name s₂ h₂ => ?_
    refine Meets.bind (meets_expect _ _) fun opening s₃ h₃ => ?_
    have hs₃ := h₃.proper (h₂.proper (h₁.proper hs))
    refine Meets.bind (ih.methodList s₃ hs₃) fun methods s₄ _ => ?_
    refine Meets.bind (meets_expect _ _) fun closing s₅ _ => Meets.pure ?_
    rintro r₅ - ⟨rfl, hclosing, hn₅⟩ ts - hmethods r₃ - ⟨rfl, hopening, hn₃⟩
      r₂ - ⟨rfl, hname, hn₂⟩ r₁ - ⟨rfl, rfl, hn₁⟩
    refine ⟨?_, ?_⟩
    · simpa using Derives.classDeclaration hkind hname hopening hmethods.derives hclosing
    · rw [hn₅, ← hn₁, ← hn₂, ← hn₃]
      exact hmethods.numbered
  · next hkind =>
    refine Meets.bind (meets_takeToken hs (by simp [hkind])) fun keyword s₁ h₁ => ?_
    refine Meets.bind (meets_expect _ _) fun name s₂ h₂ => ?_
    refine Meets.bind (ih.functionRest name s₂ (h₂.proper (h₁.proper hs))) fun decl s₃ _ =>
      Meets.pure ?_
    rintro ts - hdecl r₂ - ⟨rfl, hname, hn₂⟩ r₁ - ⟨rfl, rfl, hn₁⟩
    refine ⟨?_, ?_⟩
    · simpa using Derives.functionDeclaration hkind hname hdecl.derives
    · rw [← hn₁, ← hn₂]
      exact hdecl.numbered
  · next hkind =>
    refine Meets.bind (meets_takeToken hs (by simp [hkind])) fun keyword s₁ h₁ => ?_
    refine (ih.variableRest s₁ (h₁.proper hs)).mono ?_
    rintro ts t s₂ - - hrest r₁ - ⟨rfl, rfl, hn₁⟩
    refine ⟨.variableDeclaration hkind hrest.derives, ?_⟩
    rw [← hn₁]
    exact hrest.numbered
  · refine (ih.statement s hs).mono ?_
    rintro ts t s₁ - - hstatement
    have hopen := hstatement false (fun h => by cases h)
    exact ⟨.statementDeclaration hopen.derives, hopen.numbered⟩

theorem variableRest_builds (hs : s.Proper) :
    Meets (variableRest (fuel + 1)) s (Builds .variableRest s) := by
  unfold variableRest
  refine Meets.bind (meets_expect _ _) fun name s₁ h₁ => ?_
  refine Meets.bind (meets_accept _) fun taken s₂ h₂ => ?_
  have hs₂ := h₂.proper (h₁.proper hs)
  cases taken with
  | true =>
    refine Meets.bind (ih.expression s₂ hs₂) fun value s₃ _ => ?_
    refine Meets.bind (meets_terminate _ _ _) fun _ s₄ _ => Meets.pure ?_
    rintro ending - ⟨hn₄, hending⟩ ts hread hvalue r₂ - ⟨hn₂, equal, rfl, hequal⟩
      r₁ - ⟨rfl, hname, hn₁⟩
    refine ⟨?_, ?_⟩
    · have hends := Ends.of_terminate hvalue.derives hread hending
      simpa using Derives.variableValue hname hequal hvalue.derives hends
    · rw [← hn₁, ← hn₂, hn₄]
      exact hvalue.numbered
  | false =>
    refine Meets.bind (meets_terminate _ _ _) fun _ s₃ _ => Meets.pure ?_
    rintro r₃ - ⟨hn₃, hending⟩ r₂ hread₂ ⟨hn₂, rfl, -⟩ r₁ hread₁ ⟨rfl, hname, hn₁⟩
    have hlast : s₂.last = some name := by
      rw [hread₂.last, hread₁.last]
      rfl
    have hends := hending [] (fun h => by cases h) (fun _ => by simp [hlast, hname])
    refine ⟨?_, ?_⟩
    · cases hends with
      | written hsemicolon => simpa using Derives.variableOnly hname hsemicolon
    · rw [hn₃, hn₂, hn₁]
      exact .nil _

theorem block_builds (hs : s.Proper) :
    Meets (block (fuel + 1)) s fun read ss s' => ∃ ts closing, read = ts ++ [closing] ∧
      closing.kind = .rightBrace ∧ Builds (.declarations s.inLoop) s ts ss s' := by
  unfold block
  refine Meets.bind (ih.declarations true s hs) fun body s₁ _ => ?_
  refine Meets.bind (meets_expect _ _) fun closing s₂ _ => Meets.pure ?_
  rintro r₂ - ⟨rfl, hclosing, hn₂⟩ ts - ⟨hbody, -⟩
  refine ⟨ts, closing, by simp, hclosing, hbody.derives, ?_⟩
  rw [hn₂]
  exact hbody.numbered

theorem statement_builds (hs : s.Proper) :
    Meets (statement (fuel + 1)) s fun read t s' =>
      ∀ closed, (closed = true → s'.startsWith .elseKw = true) →
        Builds (.statement s.inLoop closed) s read t s' := by
  unfold statement
  refine Meets.peek ?_
  split
  · next hkind =>
    refine Meets.bind (meets_takeToken hs (by simp [hkind])) fun keyword s₁ h₁ => ?_
    refine Meets.bind (ih.expression s₁ (h₁.proper hs)) fun value s₂ _ => ?_
    refine Meets.bind (meets_terminate _ _ _) fun _ s₃ _ => Meets.pure ?_
    rintro ending - ⟨hn₃, hending⟩ ts hread hvalue r₁ - ⟨rfl, rfl, hn₁⟩ closed -
    refine ⟨?_, ?_⟩
    · have hends := Ends.of_terminate hvalue.derives hread hending
      simpa using Derives.print hkind hvalue.derives hends
    · rw [← hn₁, hn₃]
      exact hvalue.numbered
  · next hkind =>
    refine Meets.bind (meets_takeToken hs (by simp [hkind])) fun keyword s₁ h₁ => ?_
    refine Meets.bind (meets_expect _ _) fun opening s₂ h₂ => ?_
    have hs₂ := h₂.proper (h₁.proper hs)
    refine Meets.bind (ih.expression s₂ hs₂) fun test s₃ h₃ => ?_
    refine Meets.bind (meets_expect _ _) fun closing s₄ h₄ => ?_
    have hs₄ := h₄.proper (h₃.proper hs₂)
    refine Meets.bind (ih.statement s₄ hs₄) fun yes s₅ h₅ => ?_
    refine Meets.bind (meets_accept _) fun taken s₆ h₆ => ?_
    have hloops₄ : s₄.inLoop = s.inLoop := (((h₁.trans h₂).trans h₃).trans h₄).inLoop
    have hloops₆ : s₆.inLoop = s.inLoop := (h₅.trans h₆).inLoop.trans hloops₄
    cases taken with
    | true =>
      refine Meets.bind (ih.statement s₆ (h₆.proper (h₅.proper hs₄))) fun no s₇ _ => Meets.pure ?_
      rintro vs - hno r₆ hread₆ ⟨hn₆, other, rfl, hother⟩ us - hyes r₄ - ⟨rfl, hclosing, hn₄⟩
        ts - htest r₂ - ⟨rfl, hopening, hn₂⟩ r₁ - ⟨rfl, rfl, hn₁⟩ closed hclosed
      have hyes := hyes true (fun _ => by simp [State.startsWith, hread₆.rest, hother])
      have hno := hno closed hclosed
      rw [hloops₄] at hyes
      rw [hloops₆] at hno
      refine ⟨?_, ?_⟩
      · simpa using Derives.ifElse hkind hopening htest.derives hclosing hyes.derives hother
          hno.derives
      · have hbranches := hyes.numbered.append (hn₆ ▸ hno.numbered)
        rw [← hn₁, ← hn₂]
        exact htest.numbered.append (hn₄ ▸ hbranches)
    | false =>
      refine Meets.pure ?_
      rintro r₆ hread₆ ⟨hn₆, rfl, helse⟩ us - hyes r₄ - ⟨rfl, hclosing, hn₄⟩
        ts - htest r₂ - ⟨rfl, hopening, hn₂⟩ r₁ - ⟨rfl, rfl, hn₁⟩ closed hclosed
      cases closed with
      | true => cases helse.symm.trans (hclosed rfl)
      | false =>
        have hyes := hyes false (fun h => by cases h)
        rw [hloops₄] at hyes
        refine ⟨?_, ?_⟩
        · simpa using Derives.ifOnly hkind hopening htest.derives hclosing hyes.derives
        · rw [← hn₁, ← hn₂, hn₆]
          exact htest.numbered.append (hn₄ ▸ hyes.numbered)
  · next hkind =>
    refine Meets.bind (meets_takeToken hs (by simp [hkind])) fun opening s₁ h₁ => ?_
    refine Meets.bind (ih.block s₁ (h₁.proper hs)) fun body s₂ _ => Meets.pure ?_
    rintro r₂ - ⟨ts, closing, rfl, hclosing, hbody⟩ r₁ - ⟨rfl, rfl, hn₁⟩ closed -
    rw [h₁.inLoop] at hbody
    refine ⟨?_, ?_⟩
    · simpa using Derives.block hkind hbody.derives hclosing
    · rw [← hn₁]
      exact hbody.numbered
  · next hkind =>
    refine Meets.bind (meets_takeToken hs (by simp [hkind])) fun keyword s₁ h₁ => ?_
    refine Meets.bind (meets_expect _ _) fun opening s₂ h₂ => ?_
    have hs₂ := h₂.proper (h₁.proper hs)
    refine Meets.bind (ih.expression s₂ hs₂) fun test s₃ h₃ => ?_
    refine Meets.bind (meets_expect _ _) fun closing s₄ h₄ => ?_
    refine Meets.bind (loopBody_builds ih (h₄.proper (h₃.proper hs₂))) fun body s₅ _ =>
      Meets.pure ?_
    rintro us - hbody r₄ - ⟨rfl, hclosing, hn₄⟩ ts - htest r₂ - ⟨rfl, hopening, hn₂⟩
      r₁ - ⟨rfl, rfl, hn₁⟩ closed hclosed
    have hbody := hbody closed hclosed
    refine ⟨?_, ?_⟩
    · simpa using Derives.whileLoop hkind hopening htest.derives hclosing hbody.derives
    · rw [← hn₁, ← hn₂, Symbol.ids, Stmt.ids]
      exact htest.numbered.append (hn₄ ▸ hbody.numbered)
  · next hkind =>
    refine Meets.bind (meets_takeToken hs (by simp [hkind])) fun keyword s₁ h₁ => ?_
    refine (ih.countedLoop s₁ (h₁.proper hs)).mono ?_
    rintro ts t s₂ - - hloop r₁ - ⟨rfl, rfl, hn₁⟩ closed hclosed
    have hloop := hloop closed s.next hclosed hkind
    rw [h₁.inLoop] at hloop
    refine ⟨hloop.derives, ?_⟩
    rw [← hn₁]
    exact hloop.numbered
  · next hkind =>
    refine Meets.bind (meets_takeToken hs (by simp [hkind])) fun keyword s₁ h₁ => ?_
    refine (meets_loopExit _ _ _ _).mono ?_
    rintro r₂ t s₂ - - ⟨hn₂, hloop, rfl, semicolon, rfl, hsemicolon⟩ r₁ - ⟨rfl, rfl, hn₁⟩ closed -
    rw [← h₁.inLoop, hloop]
    refine ⟨.exitLoop hkind hsemicolon, ?_⟩
    rw [hn₂, hn₁]
    exact .nil _
  · next hkind =>
    refine Meets.bind (meets_takeToken hs (by simp [hkind])) fun keyword s₁ h₁ => ?_
    refine (meets_loopExit _ _ _ _).mono ?_
    rintro r₂ t s₂ - - ⟨hn₂, hloop, rfl, semicolon, rfl, hsemicolon⟩ r₁ - ⟨rfl, rfl, hn₁⟩ closed -
    rw [← h₁.inLoop, hloop]
    refine ⟨.nextIteration hkind hsemicolon, ?_⟩
    rw [hn₂, hn₁]
    exact .nil _
  · next hkind =>
    refine Meets.bind (meets_takeToken hs (by simp [hkind])) fun keyword s₁ h₁ => ?_
    refine Meets.check ?_
    split
    · refine Meets.bind (meets_terminate _ _ _) fun _ s₂ _ => Meets.pure ?_
      rintro r₂ - ⟨hn₂, hending⟩ r₁ hread₁ ⟨rfl, rfl, hn₁⟩ closed -
      have hends := hending [] (fun h => by cases h) (fun _ => by simp [hread₁.last, hkind])
      refine ⟨?_, ?_⟩
      · simpa using Derives.result hkind .noExpression hends
      · rw [hn₂, hn₁]
        exact .nil _
    · refine Meets.bind (ih.expression s₁ (h₁.proper hs)) fun value s₂ _ => ?_
      refine Meets.bind (meets_terminate _ _ _) fun _ s₃ _ => Meets.pure ?_
      rintro ending - ⟨hn₃, hending⟩ ts hread hvalue r₁ - ⟨rfl, rfl, hn₁⟩ closed -
      refine ⟨?_, ?_⟩
      · have hends := Ends.of_terminate hvalue.derives hread hending
        simpa using Derives.result hkind (.someExpression hvalue.derives) hends
      · rw [← hn₁, hn₃]
        exact hvalue.numbered
  · refine (ih.expressionStatement s hs).mono ?_
    rintro ts t s₁ - - hs closed -
    exact ⟨.bareExpression hs.derives, hs.numbered⟩

theorem expressionStatement_builds (hs : s.Proper) :
    Meets (expressionStatement (fuel + 1)) s (Builds .expressionStatement s) := by
  unfold expressionStatement
  refine Meets.bind (ih.expression s hs) fun value s₁ _ => ?_
  refine Meets.bind (meets_terminate _ _ _) fun _ s₂ _ => Meets.pure ?_
  rintro ending - ⟨hn₂, hending⟩ ts hread hvalue
  refine ⟨?_, ?_⟩
  · have hends := Ends.of_terminate hvalue.derives hread hending
    simpa using Derives.expressionStatement hvalue.derives hends
  · rw [hn₂]
    exact hvalue.numbered

theorem countedLoop_builds (hs : s.Proper) :
    Meets (countedLoop (fuel + 1)) s fun read t s' =>
      ∀ closed keyword, (closed = true → s'.startsWith .elseKw = true) → keyword.kind = .forKw →
        Builds (.statement s.inLoop closed) s (keyword :: read) t s' := by
  unfold countedLoop
  refine Meets.bind (meets_expect _ _) fun opening s₁ h₁ => ?_
  have hs₁ := h₁.proper hs
  refine Meets.bind (ih.loopStart s₁ hs₁) fun start s₂ h₂ => ?_
  have hs₂ := h₂.proper hs₁
  refine Meets.bind (ih.optionalExpression _ s₂ hs₂) fun test s₃ h₃ => ?_
  refine Meets.bind (meets_expect _ _) fun semicolon s₄ h₄ => ?_
  have hs₄ := h₄.proper (h₃.proper hs₂)
  refine Meets.bind (ih.optionalExpression _ s₄ hs₄) fun step s₅ h₅ => ?_
  refine Meets.bind (meets_expect _ _) fun closing s₆ h₆ => ?_
  refine Meets.bind (loopBody_builds ih (h₆.proper (h₅.proper hs₄))) fun body s₇ _ => Meets.pure ?_
  rintro vs - hbody r₆ - ⟨rfl, hclosing, hn₆⟩ us - hstep r₄ - ⟨rfl, hsemicolon, hn₄⟩ ts - htest
    rs - hstart r₁ - ⟨rfl, hopening, hn₁⟩ closed keyword hclosed hkeyword
  have hbody := hbody closed hclosed
  refine ⟨?_, ?_⟩
  · simpa using Derives.countedLoop hkeyword hopening hstart.derives htest.derives hsemicolon
      hstep.derives hclosing hbody.derives
  · rw [← hn₁, Symbol.ids, Stmt.ids_countedLoop]
    exact hstart.numbered.append
      (htest.numbered.append (hn₄ ▸ hstep.numbered.append (hn₆ ▸ hbody.numbered)))

theorem loopStart_builds (hs : s.Proper) :
    Meets (loopStart (fuel + 1)) s (Builds .loopStart s) := by
  unfold loopStart
  refine Meets.bind (meets_accept _) fun taken s₁ h₁ => ?_
  cases taken with
  | true =>
    refine Meets.pure ?_
    rintro r₁ - ⟨hn₁, semicolon, rfl, hsemicolon⟩
    refine ⟨.noStart hsemicolon, ?_⟩
    rw [hn₁]
    exact .nil _
  | false =>
    refine Meets.bind (meets_accept _) fun taken s₂ h₂ => ?_
    have hs₂ := h₂.proper (h₁.proper hs)
    cases taken with
    | true =>
      refine Meets.map ((ih.variableRest s₂ hs₂).mono ?_)
      rintro ts t s₃ - - hrest r₂ - ⟨hn₂, keyword, rfl, hkeyword⟩ r₁ - ⟨hn₁, rfl, -⟩
      refine ⟨.startVariable hkeyword hrest.derives, ?_⟩
      rw [← hn₁, ← hn₂]
      exact hrest.numbered
    | false =>
      refine Meets.map ((ih.expressionStatement s₂ hs₂).mono ?_)
      rintro ts t s₃ - - hs r₂ - ⟨hn₂, rfl, -⟩ r₁ - ⟨hn₁, rfl, -⟩
      refine ⟨.startExpression hs.derives, ?_⟩
      rw [← hn₁, ← hn₂]
      exact hs.numbered

theorem optionalExpression_builds (closing : Kind) (hs : s.Proper) :
    Meets (optionalExpression (fuel + 1) closing) s (Builds .optionalExpression s) := by
  unfold optionalExpression
  refine Meets.check ?_
  split
  · exact Meets.pure ⟨.noExpression, .nil _⟩
  · refine Meets.map ((ih.expression s hs).mono ?_)
    rintro ts e s₁ - - he
    exact ⟨.someExpression he.derives, he.numbered⟩

theorem expression_builds (hs : s.Proper) :
    Meets (expression (fuel + 1)) s (Builds .expression s) := by
  unfold expression
  refine Meets.get ?_
  split
  · next hstep => exact meets_countingStep hstep
  · split
    · next hlambda => exact ih.lambda s hs hlambda
    · refine (ih.assignment s hs).mono ?_
      rintro ts e s₁ - - he
      exact ⟨.assignmentExpression he.derives, he.numbered⟩

theorem lambda_builds (hs : s.Proper) (hlambda : s.startsLambda = true) :
    Meets (lambda (fuel + 1)) s (Builds .expression s) := by
  have hopenParen : s.next.kind = .leftParen := by
    unfold State.startsLambda at hlambda
    split at hlambda
    · cases hlambda
    · next hrest =>
      rw [State.next_of_rest hrest]
      simp only [Bool.and_eq_true, decide_eq_true_eq] at hlambda
      exact hlambda.1
  unfold lambda
  refine Meets.bind (meets_takeToken hs (by simp [hopenParen])) fun openParen s₁ h₁ => ?_
  refine Meets.bind (meets_parameters _ _) fun params s₂ h₂ => ?_
  refine Meets.bind (meets_expect _ _) fun closeParen s₃ h₃ => ?_
  refine Meets.bind (meets_expect _ _) fun arrow s₄ h₄ => ?_
  refine Meets.bind (meets_accept _) fun taken s₅ h₅ => ?_
  have hs₅ := h₅.proper (h₄.proper (h₃.proper (h₂.proper (h₁.proper hs))))
  cases taken with
  | true =>
    refine Meets.bind (functionBody_builds ih hs₅) fun body s₆ _ => Meets.pure ?_
    rintro r₆ - ⟨ts, closing, rfl, hclosing, hbody⟩ r₅ - ⟨hn₅, opening, rfl, hopening⟩
      r₄ - ⟨rfl, harrow, hn₄⟩ r₃ - ⟨rfl, hcloseParen, hn₃⟩ ps - ⟨hparams, hn₂⟩ r₁ - ⟨rfl, rfl, hn₁⟩
    refine ⟨?_, ?_⟩
    · simpa using Derives.lambdaBlock hopenParen hparams hcloseParen harrow hopening hbody.derives
        hclosing
    · rw [← hn₁, ← hn₂, ← hn₃, ← hn₄, ← hn₅]
      exact hbody.numbered
  | false =>
    refine Meets.bind (ih.expression s₅ hs₅) fun value s₆ _ => Meets.pure ?_
    rintro ts - hvalue r₅ - ⟨hn₅, rfl, -⟩ r₄ - ⟨rfl, harrow, hn₄⟩ r₃ - ⟨rfl, hcloseParen, hn₃⟩
      ps - ⟨hparams, hn₂⟩ r₁ - ⟨rfl, rfl, hn₁⟩
    refine ⟨?_, ?_⟩
    · simpa using Derives.lambdaValue hopenParen hparams hcloseParen harrow hvalue.derives
    · rw [← hn₁, ← hn₂, ← hn₃, ← hn₄, ← hn₅]
      simpa [Symbol.ids] using hvalue.numbered

theorem assignment_builds (hs : s.Proper) :
    Meets (assignment (fuel + 1)) s (Builds .assignment s) := by
  unfold assignment
  refine Meets.bind (ih.conditional s hs) fun target s₁ h₁ => ?_
  refine Meets.bind (meets_acceptToken? _) fun equals? s₂ h₂ => ?_
  cases equals? with
  | none =>
    refine Meets.pure ?_
    rintro r₂ - ⟨hn₂, rfl⟩ ts - htarget
    refine ⟨by simpa using Derives.conditionalAssignment htarget.derives, ?_⟩
    rw [hn₂]
    exact htarget.numbered
  | some equals =>
    refine Meets.bind (ih.assignment s₂ (h₂.proper (h₁.proper hs))) fun value s₃ _ => ?_
    dsimp only
    split
    · next e he =>
      refine Meets.pure ?_
      rintro us - hvalue r₂ - ⟨hn₂, rfl, hequal⟩ ts - htarget
      refine ⟨?_, ?_⟩
      · simpa using htarget.derives.assigned (of_decide_eq_true hequal) hvalue.derives he
      · rw [Symbol.ids, ids_assigned? he]
        exact htarget.numbered.append (hn₂ ▸ hvalue.numbered)
    · refine Meets.bind (meets_complain _ _) fun _ s₄ _ => Meets.pure ?_
      exact fun _ _ hfalse => False.elim hfalse

theorem conditional_builds (hs : s.Proper) :
    Meets (conditional (fuel + 1)) s (Builds .conditional s) := by
  unfold conditional
  refine Meets.bind (ih.level .disjunction s hs) fun test s₁ h₁ => ?_
  refine Meets.bind (meets_accept _) fun taken s₂ h₂ => ?_
  have hs₂ := h₂.proper (h₁.proper hs)
  cases taken with
  | true =>
    refine Meets.bind (ih.expression s₂ hs₂) fun yes s₃ h₃ => ?_
    refine Meets.bind (meets_expect _ _) fun colon s₄ h₄ => ?_
    refine Meets.bind (ih.conditional s₄ (h₄.proper (h₃.proper hs₂))) fun no s₅ _ => Meets.pure ?_
    rintro vs - hno r₄ - ⟨rfl, hcolon, hn₄⟩ us - hyes r₂ - ⟨hn₂, question, rfl, hquestion⟩
      ts - htest
    refine ⟨?_, ?_⟩
    · simpa using Derives.choice htest.derives hquestion hyes.derives hcolon hno.derives
    · exact htest.numbered.append (hn₂ ▸ hyes.numbered.append (hn₄ ▸ hno.numbered))
  | false =>
    refine Meets.pure ?_
    rintro r₂ - ⟨hn₂, rfl, -⟩ ts - htest
    refine ⟨by simpa using Derives.noChoice htest.derives, ?_⟩
    rw [hn₂]
    exact htest.numbered

theorem level_builds (l : Level) (hs : s.Proper) :
    Meets (level (fuel + 1) l) s (Builds (.level l) s) := by
  unfold level
  refine Meets.bind (ih.operand l s hs) fun left s₁ h₁ => ?_
  refine (ih.levelRest l left s₁ (h₁.proper hs)).mono ?_
  rintro us e s₂ - - hrest ts - hleft
  obtain ⟨hderives, hnumbered⟩ := hrest (.firstOperand hleft.derives) hleft.numbered
  exact ⟨hderives, hnumbered⟩

theorem levelRest_builds (l : Level) (left : Expr) (hs : s.Proper) :
    Meets (levelRest (fuel + 1) l left) s (Extends (.level l) left s) := by
  unfold levelRest
  refine Meets.bind (meets_acceptToken? _) fun operator? s₁ h₁ => ?_
  cases operator? with
  | none =>
    refine Meets.pure ?_
    rintro r₁ - ⟨hn₁, rfl⟩ ts lo hleft hnumbered
    rw [hn₁]
    exact ⟨by simpa using hleft, hnumbered⟩
  | some operator =>
    have hs₁ := h₁.proper hs
    refine Meets.bind (ih.operand l s₁ hs₁) fun right s₂ h₂ => ?_
    refine (ih.levelRest l _ s₂ (h₂.proper hs₁)).mono ?_
    rintro vs e s₃ - - hrest us - hright r₁ - ⟨hn₁, rfl, hoperator⟩ ts lo hleft hnumbered
    have hjoined := Derives.join hleft hoperator hright.derives
    have hjoinedIds : Numbered lo s₂.nextId (l.join left operator right).ids := by
      rw [ids_join]
      exact hnumbered.append (hn₁ ▸ hright.numbered)
    obtain ⟨hderives, hids⟩ := hrest hjoined hjoinedIds
    exact ⟨by simpa using hderives, hids⟩

theorem operand_builds (l : Level) (hs : s.Proper) :
    Meets (operand (fuel + 1) l) s (Builds (.operand l) s) := by
  unfold operand
  split
  · next tighter htighter =>
    refine (ih.level tighter s hs).mono ?_
    rintro ts e s₁ - - he
    exact ⟨.tighterOperand htighter he.derives, he.numbered⟩
  · next hlast =>
    refine (ih.unary s hs).mono ?_
    rintro ts e s₁ - - he
    exact ⟨.unaryOperand hlast he.derives, he.numbered⟩

theorem unary_builds (hs : s.Proper) : Meets (unary (fuel + 1)) s (Builds .unary s) := by
  unfold unary
  refine Meets.bind (meets_acceptToken? _) fun operator? s₁ h₁ => ?_
  have hs₁ := h₁.proper hs
  cases operator? with
  | some operator =>
    refine Meets.bind (ih.unary s₁ hs₁) fun value s₂ _ => Meets.pure ?_
    rintro ts - hvalue r₁ - ⟨hn₁, rfl, hoperator⟩
    refine ⟨?_, ?_⟩
    · simpa using Derives.unary (by simpa using hoperator) hvalue.derives
    · rw [← hn₁]
      exact hvalue.numbered
  | none =>
    refine Meets.bind (ih.primary s₁ hs₁) fun value s₂ h₂ => ?_
    refine (ih.suffixes value s₂ (h₂.proper hs₁)).mono ?_
    rintro us e s₃ - - hrest ts - hvalue r₁ - ⟨hn₁, rfl⟩
    obtain ⟨hderives, hids⟩ := hrest (.noSuffix hvalue.derives) hvalue.numbered
    refine ⟨.plain (by simpa using hderives), ?_⟩
    rw [← hn₁]
    exact hids

theorem suffixes_builds (value : Expr) (hs : s.Proper) :
    Meets (suffixes (fuel + 1) value) s (Extends .call value s) := by
  unfold suffixes
  refine Meets.peek ?_
  split
  · next hkind =>
    refine Meets.bind (meets_takeToken hs (by simp [hkind])) fun opening s₁ h₁ => ?_
    have hs₁ := h₁.proper hs
    refine Meets.bind (ih.expressions _ _ s₁ hs₁) fun arguments s₂ h₂ => ?_
    refine Meets.bind (meets_expect _ _) fun closing s₃ h₃ => ?_
    refine (ih.suffixes _ s₃ (h₃.proper (h₂.proper hs₁))).mono ?_
    rintro vs e s₄ - - hrest r₃ - ⟨rfl, hclosing, hn₃⟩ us - ⟨harguments, hlimit⟩
      r₁ - ⟨rfl, rfl, hn₁⟩ ts lo hvalue hnumbered
    have hcall := Derives.call hvalue hkind harguments.derives (hlimit rfl) hclosing
    have hcallIds : Numbered lo s₃.nextId (value.ids ++ idsOfExprs arguments) := by
      rw [hn₃]
      exact hnumbered.append (hn₁ ▸ harguments.numbered)
    obtain ⟨hderives, hids⟩ := hrest hcall hcallIds
    exact ⟨by simpa using hderives, hids⟩
  · next hkind =>
    refine Meets.bind (meets_takeToken hs (by simp [hkind])) fun dot s₁ h₁ => ?_
    refine Meets.bind (meets_expect _ _) fun name s₂ h₂ => ?_
    refine (ih.suffixes _ s₂ (h₂.proper (h₁.proper hs))).mono ?_
    rintro vs e s₃ - - hrest r₂ - ⟨rfl, hname, hn₂⟩ r₁ - ⟨rfl, rfl, hn₁⟩ ts lo hvalue hnumbered
    rw [← hn₁, ← hn₂] at hnumbered
    obtain ⟨hderives, hids⟩ := hrest (.property hvalue hkind hname) hnumbered
    exact ⟨by simpa using hderives, hids⟩
  · next hkind =>
    refine Meets.bind (meets_takeToken hs (by simp [hkind])) fun bracket s₁ h₁ => ?_
    have hs₁ := h₁.proper hs
    refine Meets.bind (ih.expression s₁ hs₁) fun key s₂ h₂ => ?_
    refine Meets.bind (meets_expect _ _) fun closing s₃ h₃ => ?_
    refine (ih.suffixes _ s₃ (h₃.proper (h₂.proper hs₁))).mono ?_
    rintro vs e s₄ - - hrest r₃ - ⟨rfl, hclosing, hn₃⟩ us - hkey r₁ - ⟨rfl, rfl, hn₁⟩
      ts lo hvalue hnumbered
    have hentry := Derives.entry hvalue hkind hkey.derives hclosing
    have hentryIds : Numbered lo s₃.nextId (value.ids ++ key.ids) := by
      rw [hn₃]
      exact hnumbered.append (hn₁ ▸ hkey.numbered)
    obtain ⟨hderives, hids⟩ := hrest hentry hentryIds
    exact ⟨by simpa using hderives, hids⟩
  · exact Meets.pure fun ts lo hvalue hnumbered => ⟨by simpa using hvalue, hnumbered⟩

theorem expressions_builds (closing : Kind) (limited : Bool) (hs : s.Proper) :
    Meets (expressions (fuel + 1) closing limited) s fun read es s' =>
      Builds .expressions s read es s' ∧ (limited = true → es.length ≤ 255) := by
  unfold expressions
  refine Meets.check ?_
  split
  · exact Meets.pure ⟨⟨.noExpressions, .nil _⟩, fun _ => Nat.zero_le _⟩
  · refine (ih.expressionList limited 0 s hs).mono ?_
    rintro ts es s₁ - - ⟨hes, hlimit⟩
    exact ⟨⟨.someExpressions hes.derives, hes.numbered⟩, fun h => by simpa using hlimit h⟩

theorem expressionList_builds (limited : Bool) (count : Nat) (hs : s.Proper) :
    Meets (expressionList (fuel + 1) limited count) s fun read es s' =>
      Builds .expressionList s read es s' ∧ (limited = true → count + es.length ≤ 255) := by
  unfold expressionList
  have hlist : ∀ s₁, s.Leads s₁ → Meets (do
      let value ← expression fuel
      if ← accept .comma then
        let values ← expressionList fuel limited (count + 1)
        return value :: values
      else return [value]) s₁ fun read es s' => Builds .expressionList s₁ read es s' ∧
        (limited = true → count < 255 → count + es.length ≤ 255) := by
    intro s₁ h₁
    have hs₁ := h₁.proper hs
    refine Meets.bind (ih.expression s₁ hs₁) fun value s₂ h₂ => ?_
    refine Meets.bind (meets_accept _) fun taken s₃ h₃ => ?_
    cases taken with
    | true =>
      refine Meets.bind (ih.expressionList limited (count + 1) s₃ (h₃.proper (h₂.proper hs₁)))
        fun values s₄ _ => Meets.pure ?_
      rintro us - ⟨hvalues, hlimit⟩ r₃ - ⟨hn₃, comma, rfl, hcomma⟩ ts - hvalue
      refine ⟨⟨?_, hvalue.numbered.append (hn₃ ▸ hvalues.numbered)⟩, fun h _ => ?_⟩
      · simpa using Derives.moreExpressions hvalue.derives hcomma hvalues.derives
      · have := hlimit h
        rw [List.length_cons]
        omega
    | false =>
      refine Meets.pure ?_
      rintro r₃ - ⟨hn₃, rfl, -⟩ ts - hvalue
      refine ⟨⟨by simpa using Derives.lastExpression hvalue.derives, ?_⟩, fun _ h => h⟩
      rw [hn₃]
      simpa [Symbol.ids] using hvalue.numbered
  refine (Meets.unless (meets_complainNext _) hlist).mono ?_
  rintro read es s' - - ⟨hcount, hes, hlimit⟩
  refine ⟨hes, fun h => hlimit h ?_⟩
  have hfree : ¬maxArguments ≤ count := fun hle => hcount (by simp [h, hle])
  exact Nat.lt_of_not_le hfree

theorem primary_builds (hs : s.Proper) : Meets (primary (fuel + 1)) s (Builds .primary s) := by
  have hconstant : ∀ {value : Literal}, constant? s.next.kind = some value →
      s.next.kind ≠ .endOfInput → Meets (do let _ ← takeToken; return .literal value) s
        (Builds .primary s) := by
    intro value hvalue hend
    refine Meets.bind (meets_takeToken hs hend) fun t s₁ _ => Meets.pure ?_
    rintro r₁ - ⟨rfl, rfl, hn₁⟩
    refine ⟨.constant hvalue, ?_⟩
    rw [hn₁]
    exact .nil _
  unfold primary
  refine Meets.peek ?_
  split
  case h_1 | h_2 | h_3 | h_4 | h_5 | h_6 | h_7 =>
    next hkind => exact hconstant (by rw [hkind]; rfl) (by simp [hkind])
  · next hkind =>
    refine Meets.bind (meets_takeToken hs (by simp [hkind])) fun keyword s₁ _ => ?_
    refine Meets.bind meets_freshId fun id s₂ _ => Meets.pure ?_
    rintro r₂ - ⟨rfl, rfl, hn₂⟩ r₁ - ⟨rfl, rfl, hn₁⟩
    refine ⟨.receiver hkind, ?_⟩
    rw [hn₂, hn₁]
    exact .single _
  · next hkind =>
    refine Meets.bind (meets_takeToken hs (by simp [hkind])) fun name s₁ _ => ?_
    refine Meets.bind meets_freshId fun id s₂ _ => Meets.pure ?_
    rintro r₂ - ⟨rfl, rfl, hn₂⟩ r₁ - ⟨rfl, rfl, hn₁⟩
    refine ⟨.name hkind, ?_⟩
    rw [hn₂, hn₁]
    exact .single _
  · next hkind =>
    refine Meets.bind (meets_takeToken hs (by simp [hkind])) fun opening s₁ h₁ => ?_
    refine Meets.bind (ih.expression s₁ (h₁.proper hs)) fun inner s₂ _ => ?_
    refine Meets.bind (meets_expect _ _) fun closing s₃ _ => Meets.pure ?_
    rintro r₃ - ⟨rfl, hclosing, hn₃⟩ ts - hinner r₁ - ⟨rfl, rfl, hn₁⟩
    refine ⟨by simpa using Derives.group hkind hinner.derives hclosing, ?_⟩
    rw [hn₃, ← hn₁]
    exact hinner.numbered
  · next hkind =>
    refine Meets.bind (meets_takeToken hs (by simp [hkind])) fun bracket s₁ h₁ => ?_
    refine Meets.bind (ih.expressions _ _ s₁ (h₁.proper hs)) fun elements s₂ _ => ?_
    refine Meets.bind (meets_expect _ _) fun closing s₃ _ => Meets.pure ?_
    rintro r₃ - ⟨rfl, hclosing, hn₃⟩ ts - ⟨helements, -⟩ r₁ - ⟨rfl, rfl, hn₁⟩
    refine ⟨by simpa using Derives.array hkind helements.derives hclosing, ?_⟩
    rw [hn₃, ← hn₁]
    exact helements.numbered
  · exact meets_fail _

end Rules

/-- Every rule builds the trees of its symbol, with any amount of fuel. -/
theorem rulesBuild (fuel : Nat) : RulesBuild fuel := by
  induction fuel with
  | zero => exact rulesBuild_zero
  | succ fuel ih =>
    exact {
      declarations := fun inBlock _ hs => declarations_builds ih inBlock hs
      declaration := fun _ hs => declaration_builds ih hs
      methodList := fun _ hs => methodList_builds ih hs
      functionRest := fun name _ hs => functionRest_builds ih name hs
      variableRest := fun _ hs => variableRest_builds ih hs
      block := fun _ hs => block_builds ih hs
      statement := fun _ hs => statement_builds ih hs
      expressionStatement := fun _ hs => expressionStatement_builds ih hs
      countedLoop := fun _ hs => countedLoop_builds ih hs
      loopStart := fun _ hs => loopStart_builds ih hs
      optionalExpression := fun closing _ hs => optionalExpression_builds ih closing hs
      expression := fun _ hs => expression_builds ih hs
      lambda := fun _ hs hlambda => lambda_builds ih hs hlambda
      assignment := fun _ hs => assignment_builds ih hs
      conditional := fun _ hs => conditional_builds ih hs
      level := fun l _ hs => level_builds ih l hs
      levelRest := fun l left _ hs => levelRest_builds ih l left hs
      operand := fun l _ hs => operand_builds ih l hs
      unary := fun _ hs => unary_builds ih hs
      suffixes := fun value _ hs => suffixes_builds ih value hs
      expressions := fun closing limited _ hs => expressions_builds ih closing limited hs
      expressionList := fun limited count _ hs => expressionList_builds ih limited count hs
      primary := fun _ hs => primary_builds ih hs }

/-! ### Whole programs -/

theorem proper_ofTokens (tokens : List Token) (firstId : Nat) :
    (State.ofTokens tokens firstId).Proper := by
  unfold State.Proper State.ofTokens
  cases hfind : tokens.find? (·.kind = .endOfInput) with
  | none => rfl
  | some t => simpa using List.find?_some hfind

section RunRule

variable {α : Type} {rule : Nat → Rule α} {Post : State → List Token → α → State → Prop}
  (hrule : ∀ fuel s, s.Proper → Meets (rule fuel) s (Post s)) (tokens : List Token) (firstId : Nat)

include hrule

/-- The numbers only move on, also where there is no tree. -/
theorem le_nextId_runRule : firstId ≤ (runRule rule tokens firstId).nextId := by
  have hmeets := hrule (fuelFor tokens) _ (proper_ofTokens tokens firstId)
  unfold runRule
  unfold Meets at hmeets
  split
  · next hrun =>
    simp only [hrun] at hmeets
    exact hmeets.1.nextId
  · next hrun =>
    simp only [hrun] at hmeets
    exact hmeets.nextId
  · next hrun =>
    simp only [hrun] at hmeets
    exact hmeets.nextId

/-- A tree comes from a run without a complaint, and so with tokens that account for it. -/
theorem reads_of_tree {tree : α} (h : (runRule rule tokens firstId).tree? = some tree) :
    ∃ read s', (State.ofTokens tokens firstId).Reads read s' ∧
      Post (State.ofTokens tokens firstId) read tree s' ∧
      (runRule rule tokens firstId).nextId = s'.nextId := by
  have hmeets := hrule (fuelFor tokens) _ (proper_ofTokens tokens firstId)
  unfold runRule at h ⊢
  split at h
  · next found s' hrun =>
    dsimp only
    split at h
    · next hempty =>
      cases h
      have hquiet : s'.reports.size = 0 := Array.isEmpty_iff_size_eq_zero.mp hempty
      obtain ⟨read, hread, hpost⟩ := hmeets.reads hrun hquiet
      exact ⟨read, s', hread, hpost, rfl⟩
    · cases h
  · cases h
  · cases h

end RunRule

/-- The numbers only move on, also where there is no program. -/
theorem le_nextId_parseProgram (tokens : List Token) (firstId : Nat) :
    firstId ≤ (parseProgram tokens firstId).nextId :=
  le_nextId_runRule (fun fuel => (rulesBuild fuel).declarations false) tokens firstId

/-- A tree is only given if there are no complaints. -/
theorem reports_of_tree {tokens : List Token} {firstId : Nat} {program : List Stmt}
    (h : (parseProgram tokens firstId).tree? = some program) :
    (parseProgram tokens firstId).reports = [] := by
  unfold parseProgram runRule at h ⊢
  split at h
  · next tree t hrun =>
    dsimp only at h ⊢
    split at h
    · next hempty => simpa using hempty
    · cases h
  · cases h
  · cases h

/-- An accepted program comes from reading all the tokens before the end marker. -/
theorem parseProgram_builds {tokens : List Token} {firstId : Nat} {program : List Stmt}
    (h : (parseProgram tokens firstId).tree? = some program) :
    Derives (.declarations false) (tokens.takeWhile (·.kind ≠ .endOfInput)) program ∧
      Numbered firstId (parseProgram tokens firstId).nextId (idsOfStmts program) := by
  obtain ⟨read, s', hread, ⟨hbuilds, hend⟩, hnext⟩ :=
    reads_of_tree (fun fuel => (rulesBuild fuel).declarations false) tokens firstId h
  have hall : tokens.takeWhile (·.kind ≠ .endOfInput) = read := by
    have hrest := hread.rest
    rw [hend rfl, List.append_nil] at hrest
    exact hrest
  rw [hall, parseProgram, hnext]
  exact ⟨hbuilds.derives, hbuilds.numbered⟩

/-- An accepted expression comes from reading tokens in front. -/
theorem parseExpression_builds {tokens : List Token} {firstId : Nat} {e : Expr}
    (h : (parseExpression tokens firstId).tree? = some e) :
    (∃ read, read <+: tokens.takeWhile (·.kind ≠ .endOfInput) ∧ Derives .expression read e) ∧
      Numbered firstId (parseExpression tokens firstId).nextId e.ids := by
  obtain ⟨read, s', hread, hbuilds, hnext⟩ :=
    reads_of_tree (fun fuel => (rulesBuild fuel).expression) tokens firstId h
  rw [parseExpression, hnext]
  exact ⟨⟨read, ⟨s'.rest, hread.rest.symm⟩, hbuilds.derives⟩, hbuilds.numbered⟩

/-- **Soundness.** Whatever the tokens are, an accepted program is the tree of a derivation of the
tokens before the first end marker. -/
theorem parseProgram_derives {tokens : List Token} {firstId : Nat} {program : List Stmt}
    (h : (parseProgram tokens firstId).tree? = some program) :
    Derives (.declarations false) (tokens.takeWhile (·.kind ≠ .endOfInput)) program :=
  (parseProgram_builds h).1

/-- `repita (; a; i++) se (a) se (b) pare; senao (x) => i--;`, with more tokens behind the end
marker: the `senao` belongs to the inner `se`, the semicolon at the end to the step. -/
def nestedChoice : List Token :=
  [⟨.forKw, "repita", 1⟩, ⟨.leftParen, "(", 1⟩, ⟨.semicolon, ";", 1⟩, ⟨.identifier, "a", 1⟩,
   ⟨.semicolon, ";", 1⟩, ⟨.identifier, "i", 1⟩, ⟨.plusPlus, "++", 1⟩, ⟨.rightParen, ")", 1⟩,
   ⟨.ifKw, "se", 2⟩, ⟨.leftParen, "(", 2⟩, ⟨.identifier, "a", 2⟩, ⟨.rightParen, ")", 2⟩,
   ⟨.ifKw, "se", 2⟩, ⟨.leftParen, "(", 2⟩, ⟨.identifier, "b", 2⟩, ⟨.rightParen, ")", 2⟩,
   ⟨.breakKw, "pare", 2⟩, ⟨.semicolon, ";", 2⟩, ⟨.elseKw, "senao", 3⟩, ⟨.leftParen, "(", 3⟩,
   ⟨.identifier, "x", 3⟩, ⟨.rightParen, ")", 3⟩, ⟨.arrow, "=>", 3⟩, ⟨.identifier, "i", 3⟩,
   ⟨.minusMinus, "--", 3⟩, ⟨.semicolon, ";", 3⟩, ⟨.endOfInput, "", 3⟩, ⟨.varKw, "var", 3⟩]

theorem isSome_parseProgram_nestedChoice : (parseProgram nestedChoice 0).tree?.isSome = true := by
  decide +kernel

theorem nestedChoice_derives : ∃ program, (parseProgram nestedChoice 0).tree? = some program ∧
    Derives (.declarations false) (nestedChoice.takeWhile (·.kind ≠ .endOfInput)) program := by
  obtain ⟨program, h⟩ := Option.isSome_iff_exists.mp isSome_parseProgram_nestedChoice
  exact ⟨program, h, parseProgram_derives h⟩

end Parser

end Roteiro
