import Roteiro.Proofs.Parser.Fuel
import Roteiro.Proofs.Parser.Sides

/-!
# Shortening an assignment to a step

Each rule of the parser does in the text with the step `i++` what it has done in the text with the
assignment `i = i + 1`. At the place itself the two trees are alike, and the semicolon behind the
step may be read with it (`follows_counting`). Nearly everywhere this evens out: if a semicolon
behind the assignment ends a statement in the first text, then the end of that statement in the
second one finds it read, and elsewhere a semicolon could not be read on. Only the head of a counted
loop expects a semicolon behind its condition whether or not one has been read
(`follows_condition`).

* `rulesFollow`: every rule follows.
-/

namespace Roteiro

open Grammar

namespace Parser

variable {w : Site} {inside : Bool} {s s' : State}

/-! ### At the place -/

theorem State.before_rest {ts : List Token} (h : s.rest = ts) : s.before ts = s := by
  rw [← h]
  rfl

/-- What is read without a complaint is read so with more fuel. -/
theorem expression_fuel {n m : Nat} (hnm : n ≤ m) (hs : s.Proper) {e : Expr} {s₁ : State}
    (hrun : expression n s = .ok e s₁) (hquiet : s₁.reports = #[]) :
    expression m s = .ok e s₁ := by
  have hfits : s.Fits [] := ⟨hs, fun hne => absurd rfl hne⟩
  have hrules : RulesCarry [] n m := rulesCarry (by simp [Declares]) hnm
  have hcarries := hrules.expression s fun _ : True => hfits
  obtain ⟨hbegun, hjoins⟩ := hcarries.carries trivial e s₁ hrun (by rw [hquiet]; rfl)
  obtain ⟨s₂, hrun₂, hjoined⟩ := hjoins trivial s
    ⟨(List.append_nil _).symm, rfl, .inr rfl, rfl, rfl, rfl⟩
  have hleads := ((rulesBuild n).expression s hs).leads hrun
  have hleads₂ := ((rulesBuild m).expression s hs).leads hrun₂
  rw [hrun₂]
  congr 1
  obtain ⟨rest, ending, last, loops, nextId, reports⟩ := s₁
  obtain ⟨rest₂, ending₂, last₂, loops₂, nextId₂, reports₂⟩ := s₂
  have hrest : rest₂ = rest := by simpa using hjoined.rest
  have hending : ending₂ = ending := hleads₂.ending.trans hleads.ending.symm
  have hlast : last₂ = last := hjoined.last.resolve_left hbegun.begun
  have hloops : loops₂ = loops := hjoined.loops
  have hnext : nextId₂ = nextId := hjoined.nextId
  have hreports : reports₂ = reports := hjoined.reports
  rw [hrest, hending, hlast, hloops, hnext, hreports]

/-- The assignment is read if anything is. -/
theorem expression_assigned (c : Counting) {after : List Token} {n : Nat} (hs : s.Proper)
    (hrest : s.rest = c.long ++ after) (hafter : grip after = 0) {e : Expr} {s₁ : State}
    (hrun : expression n s = .ok e s₁) (hquiet : s₁.reports = #[]) :
    e = c.assigned s.nextId ∧ s₁ = (s.after c.long 2).before after := by
  obtain ⟨m, hm⟩ := reaches_assigned c hs hafter
  have htakes := hm (n + m) (Nat.le_add_left m n)
  unfold Takes at htakes
  rw [State.before_rest hrest, expression_fuel (Nat.le_add_right n m) hs hrun hquiet] at htakes
  cases htakes
  exact ⟨rfl, rfl⟩

/-- At the place the two trees are alike, and the semicolon behind the step is read. -/
theorem follows_counting (heven : s.Even s') (hrest : s.rest = w.long ++ w.after)
    (hrest' : s'.rest = w.short ++ w.after) (n : Nat) :
    Follows w never (Loose w shapes.expr) (expression n) (expression n) s s' := by
  intro e s₁ hrun hquiet
  obtain ⟨rfl, rfl⟩ := expression_assigned w.toCounting heven.proper hrest w.calm hrun hquiet
  cases n with
  | zero => cases hrun
  | succ n =>
    have hlike := w.toCounting.like s.nextId s'.nextId
    have hone : ¬w.one.kind = .semicolon := by simp [w.one_kind]
    refine .inr (.inr ?_)
    cases hsemicolon : begins w.after .semicolon with
    | false =>
      have htakes := takes_stepped w.toCounting n s' (.inl ⟨rfl, hsemicolon⟩)
      unfold Takes at htakes
      rw [List.append_nil, State.before_rest hrest'] at htakes
      refine ⟨_, _, htakes, hlike, .inl ⟨?_, .behind rfl (List.suffix_refl _), ?_⟩⟩
      · exact ⟨heven.proper, heven.ending, heven.loops, congrArg (· + 2) heven.nextId,
          heven.reports⟩
      · have hstep : ¬w.step.kind = .semicolon := by
          rcases w.step_kind with h | h <;> simp [h]
        simp [State.before, State.after, Counting.long, Counting.short, hone, hstep]
    | true =>
      obtain ⟨t, rest, hafter, hkind⟩ : ∃ t rest, w.after = t :: rest ∧ t.kind = .semicolon := by
        cases hcase : w.after with
        | nil => rw [hcase] at hsemicolon; cases hsemicolon
        | cons t rest => exact ⟨t, rest, rfl, by simpa [hcase, begins_cons] using hsemicolon⟩
      have htakes : Takes (expression (n + 1)) s' (w.short ++ [t]) rest
          (pure (w.stepped s'.nextId)) 2 :=
        takes_stepped w.toCounting n s' (.inr ⟨t, rfl, hkind⟩)
      unfold Takes at htakes
      rw [List.append_assoc, List.singleton_append, ← hafter, State.before_rest hrest'] at htakes
      refine ⟨_, _, htakes, hlike, .inr ⟨rfl, hsemicolon, ?_, ⟨?_, .behind ?_ ?_, ?_⟩⟩⟩
      · simp [State.before, State.after, Counting.long, hone]
      · refine ⟨?_, ?_, ?_, ?_, ?_⟩ <;> simp only [State.advance, State.before, hafter, State.after]
        · exact heven.proper
        · exact heven.ending
        · exact heven.loops
        · rw [heven.nextId]
        · exact heven.reports
      · simp only [State.advance, State.before, hafter]
      · simp only [State.advance, State.before, hafter]
        exact List.suffix_cons t rest
      · simp [State.advance, State.before, State.after, hafter, Counting.short]

/-! ### Rules without a circle -/

section Rules

/-- Behind a loose end both states are even as well. -/
theorem even_of_loose (h : Side w false s s' ∨ Taken w s s') : s.Even s' := by
  rcases h with hside | htaken
  · exact hside.toEven
  · have heven := htaken.side.toEven
    have hs : s.Proper := by
      have hending : s.advance.ending = s.ending := s.leads_advance.ending
      rw [State.Proper, ← hending]
      exact heven.proper
    have hadvance := State.even_advance hs
    exact ⟨hs, ⟨heven.ending.1.trans hadvance.ending.1, heven.ending.2.trans hadvance.ending.2⟩,
      heven.loops.trans hadvance.loops, heven.nextId.trans hadvance.nextId,
      heven.reports.trans hadvance.reports⟩

/-- The end of a statement with a value. -/
theorem follows_ended {value value' : Expr} {cause : Cause} {built built' : Stmt}
    (h : Side w false s s' ∨ Taken w s s') (hvalue : shapes.expr value value')
    (hbuilt : shapes.stmt built built') :
    Follows w never (Joint w shapes.stmt) (terminate (some value) cause >>= fun _ => pure built)
      (terminate (some value') cause >>= fun _ => pure built') s s' :=
  (follows_terminate _ h (.some hvalue)).joint (even_of_loose h) fun _ _ _ _ _ h₁ =>
    .pure ⟨hbuilt, h₁⟩

/-- Names are read up to the place at most, and there the first text cannot be read on. -/
theorem follows_parameterList (fuel count : Nat) (h : Side w inside s s') :
    Follows w (facing .equal) (Joint w (List.Forall₂ (shapes.ofKind .identifier)))
      (parameterList fuel count) (parameterList fuel count) s s' := by
  induction fuel generalizing count inside s s' with
  | zero => exact follows_outOfFuel
  | succ fuel ih =>
    unfold parameterList
    refine .ite (fun _ => follows_complaint h.proper rfl) fun _ => ?_
    refine follows_name h (fun name s₁ names s₂ hfacing hrun => ?_)
      fun name name' s₁ s₁' hname h₁ => ?_
    · have hcomma : s₁.startsWith .comma = false := by
        rw [Bool.eq_false_iff]
        intro hcomma
        cases kind_eq_of_startsWith hfacing hcomma
      simp only [Bind.bind, EStateM.bind, accept, hcomma, Bool.false_eq_true, if_false] at hrun
      cases hrun
      exact hfacing
    · refine follows_accept h₁ (by decide) (by decide) fun taken s₂ s₂' h₂ => ?_
      refine .ite (fun _ => ?_) fun _ => .pure ⟨.cons hname .nil, h₂⟩
      refine (ih (count + 1) h₂).bind_of h₂.toEven (fun names s₃ _ s₄ hfacing hrun => ?_) ?_
      · cases hrun
        exact hfacing
      · rintro names names' s₃ s₃' ⟨hnames, h₃⟩
        exact .pure ⟨.cons hname hnames, h₃⟩

theorem follows_parameters (fuel : Nat) (h : Side w inside s s') :
    Follows w (facing .equal) (Joint w (List.Forall₂ (shapes.ofKind .identifier)))
      (parameters fuel) (parameters fuel) s s' := by
  unfold parameters
  refine follows_check h (.ite (fun _ => .pure ⟨.nil, h.loosen⟩) fun _ => ?_)
  exact follows_parameterList fuel 0 h

/-- A step that stands in both texts. -/
theorem follows_countingStep (h : Side w true s s') (hstarts : s.startsStep = true) :
    Follows w never (Joint w shapes.expr) countingStep countingStep s s' := by
  have hname := kind_next_of_startsStep hstarts
  have hstep : s.advance.next.kind = .plusPlus ∨ s.advance.next.kind = .minusMinus := by
    unfold State.startsStep at hstarts
    split at hstarts
    · next name step rest hrest =>
      simp only [Bool.and_eq_true, Bool.or_eq_true, decide_eq_true_eq] at hstarts
      rw [State.next_of_rest (State.rest_advance hrest)]
      exact hstarts.2
    · cases hstarts
  unfold countingStep
  refine follows_take_of (follows_take (h.advance.inside_of_kind ?_ ?_) rfl
    fun step step' s₂ s₂' hstepped h₂ => ?_)
  · rcases hstep with hkind | hkind <;> rw [hkind] <;> decide
  · rcases hstep with hkind | hkind <;> rw [hkind] <;> decide
  refine follows_accept h₂ (by decide) (by decide) fun _ s₃ s₃' h₃ => ?_
  refine follows_fresh h₃ fun readId readId' s₄ s₄' h₄ => ?_
  refine follows_fresh h₄ fun assignId assignId' s₅ s₅' h₅ => .pure ⟨?_, h₅⟩
  exact like_step ⟨h.next, hname⟩ hstepped.1 trivial trivial

theorem follows_loopExit {keyword keyword' : Token} (cause : Cause) {build : Token → Stmt}
    (hbuild : shapes.stmt (build keyword) (build keyword')) (h : Side w inside s s') :
    Follows w never (Joint w shapes.stmt) (loopExit keyword cause build)
      (loopExit keyword' cause build) s s' := by
  unfold loopExit
  have hend : Follows w never (Joint w shapes.stmt)
      (if s.loops = 0 then do
        complain keyword cause
        let _ ← expect .semicolon .expectedExitEnd
        return build keyword
      else do
        let _ ← expect .semicolon .expectedExitEnd
        return build keyword)
      (if s.loops = 0 then do
        complain keyword' cause
        let _ ← expect .semicolon .expectedExitEnd
        return build keyword'
      else do
        let _ ← expect .semicolon .expectedExitEnd
        return build keyword') s s' := by
    refine .ite (fun _ => follows_complaint h.proper rfl) fun _ => ?_
    exact follows_expect h (by decide) (by decide) fun _ _ _ _ _ h₁ => .pure ⟨hbuild, h₁⟩
  refine hend.congr rfl ?_
  rw [get_bind_apply, h.loops]

/-- The semicolon behind the condition of a counted loop. Where the one behind the step is read, it
is missing in the second text; if there was another one, the first text could not be read on. -/
theorem follows_condition {β β' : Type} {F : β → β' → State → State → Prop} {next : Token → Rule β}
    {next' : Token → Rule β'} [∀ t, Leading (next t)]
    (h : Side w false s s' ∨ Taken w s s' ∧ w.EndsCondition (w.before ++ w.front))
    (hstops : ∀ t s₁ b s₂, facing .semicolon s₁ → s₁.Proper → next t s₁ = .ok b s₂ →
      s₂.reports ≠ #[])
    (hnext : ∀ t t' s₁ s₁', Side w false s₁ s₁' → Follows w never F (next t) (next' t') s₁ s₁') :
    Follows w never F (expect .semicolon .expectedLoopConditionEnd >>= next)
      (expect .semicolon .expectedLoopConditionEnd >>= next') s s' := by
  rcases h with hside | ⟨htaken, hcondition⟩
  · exact follows_expect hside (by decide) (by decide) fun t t' s₁ s₁' _ => hnext t t' s₁ s₁'
  · intro b s₂ hrun hquiet₂
    simp only [Bind.bind, EStateM.bind, expect, htaken.starts, if_true] at hrun
    have hfacing : s'.startsWith .semicolon = false := by
      rw [htaken.side.startsWith, Bool.eq_false_iff]
      exact fun hfacing => hstops _ _ _ _ hfacing htaken.side.proper hrun hquiet₂
    have hfault : (expect .semicolon .expectedLoopConditionEnd >>= next') s' =
        .error (.fault (.parse s'.next .expectedLoopConditionEnd)) s' := by
      simp [Bind.bind, EStateM.bind, expect, hfacing, fail]
    have hquiet : s'.reports = #[] :=
      htaken.side.reports.trans (Leading.quiet htaken.side.proper hrun hquiet₂)
    refine .inr (.inl ⟨hcondition, htaken.semicolon, s'.next, ?_⟩)
    rw [hfault]
    simp [complaints, State.report, hquiet]

end Rules

/-- The place ends a condition that is read up to the tokens behind the place. -/
theorem endsCondition (h : Side w false s s') {rs ts : List Token} {keyword opening : Token}
    {start : Option Stmt} {test : Expr} (hkeyword : keyword.kind = .forKw)
    (hopening : opening.kind = .leftParen) (hstart : Derives .loopStart rs start)
    (htest : Derives .expression ts test) (hrest : s.rest = ts ++ w.after)
    (hsuffix : keyword :: opening :: (rs ++ s.rest) <:+ w.before ++ w.whole) :
    w.EndsCondition (w.before ++ w.front) := by
  obtain ⟨vs, rfl⟩ : ∃ vs, ts = vs ++ w.long := by
    cases h.place with
    | here hrest₁ =>
      refine ⟨w.front, List.append_cancel_right (hrest.symm.trans (hrest₁.trans ?_))⟩
      simp only [Site.whole, List.append_assoc]
    | @ahead _ _ _ t p hrest₁ =>
      refine ⟨t :: (p ++ w.front), List.append_cancel_right (hrest.symm.trans (hrest₁.trans ?_))⟩
      simp only [Site.whole, List.append_assoc, List.cons_append]
    | behind _ hafter =>
      -- a condition has tokens of its own
      obtain ⟨t, us, rfl, -⟩ := htest.startsExpression
      have hle := hafter.length_le
      rw [hrest, List.length_append, List.length_cons] at hle
      omega
  obtain ⟨us, hus⟩ := hsuffix
  have hbefore : w.before ++ w.front = us ++ keyword :: opening :: (rs ++ vs) := by
    refine List.append_cancel_right (?_ : _ ++ (w.long ++ w.after) = _ ++ (w.long ++ w.after))
    rw [hrest] at hus
    simp only [Site.whole, List.append_assoc, List.cons_append] at hus ⊢
    exact hus.symm
  rw [hbefore]
  exact .head hkeyword hopening hstart htest

/-! ### Rules in a circle -/

/-- With so much fuel every rule follows in the second text. Those that read less than an expression
do not start at the place, and those that read several expressions do not stop in front of a
semicolon. -/
structure RulesFollow (w : Site) (n : Nat) : Prop where
  declarations : ∀ inBlock {s s'}, Side w false s s' →
    Follows w never (Joint w shapes.stmts) (declarations n inBlock) (declarations n inBlock) s s'
  declaration : ∀ {s s'}, Side w false s s' →
    Follows w never (Joint w shapes.stmt) (declaration n) (declaration n) s s'
  methodList : ∀ {s s'}, Side w false s s' →
    Follows w never (Joint w shapes.functions) (methodList n) (methodList n) s s'
  functionRest : ∀ {name name' s s'}, shapes.ofKind .identifier name name' → Side w false s s' →
    Follows w never (Joint w shapes.function) (functionRest n name) (functionRest n name') s s'
  variableRest : ∀ {s s'}, Side w true s s' →
    Follows w never (Joint w shapes.stmt) (variableRest n) (variableRest n) s s'
  block : ∀ {s s'}, Side w false s s' →
    Follows w never (Joint w shapes.stmts) (block n) (block n) s s'
  statement : ∀ {s s'}, Side w false s s' →
    Follows w never (Joint w shapes.stmt) (statement n) (statement n) s s'
  expressionStatement : ∀ {s s'}, Side w false s s' →
    Follows w never (Joint w shapes.stmt) (expressionStatement n) (expressionStatement n) s s'
  countedLoop : ∀ {keyword s s'}, keyword.kind = .forKw →
    keyword :: s.rest <:+ w.before ++ w.whole → Side w false s s' →
      Follows w never (Joint w shapes.stmt) (countedLoop n) (countedLoop n) s s'
  loopStart : ∀ {s s'}, Side w false s s' →
    Follows w never (Joint w (Option.Rel shapes.stmt)) (loopStart n) (loopStart n) s s'
  optionalExpression : ∀ closing {s s'}, Side w false s s' →
    Follows w never
      (fun e? e?' s₁ s₁' => Loose w (Option.Rel shapes.expr) e? e?' s₁ s₁' ∧
        (e? = none → Side w false s₁ s₁'))
      (optionalExpression n closing) (optionalExpression n closing) s s'
  expression : ∀ {s s'}, Side w false s s' →
    Follows w never (Loose w shapes.expr) (expression n) (expression n) s s'
  lambda : ∀ {s s'}, Side w true s s' →
    Follows w never (Loose w shapes.expr) (lambda n) (lambda n) s s'
  assignment : ∀ {s s'}, Side w true s s' →
    Follows w never (Joint w shapes.expr) (assignment n) (assignment n) s s'
  conditional : ∀ {s s'}, Side w true s s' →
    Follows w never (Joint w shapes.expr) (conditional n) (conditional n) s s'
  level : ∀ l {s s'}, Side w true s s' →
    Follows w never (Joint w shapes.expr) (level n l) (level n l) s s'
  levelRest : ∀ l {left left' s s'}, shapes.expr left left' → Side w false s s' →
    Follows w never (Joint w shapes.expr) (levelRest n l left) (levelRest n l left') s s'
  operand : ∀ l {s s'}, Side w true s s' →
    Follows w never (Joint w shapes.expr) (operand n l) (operand n l) s s'
  unary : ∀ {s s'}, Side w true s s' →
    Follows w never (Joint w shapes.expr) (unary n) (unary n) s s'
  suffixes : ∀ {value value' s s'}, shapes.expr value value' → Side w false s s' →
    Follows w never (Joint w shapes.expr) (suffixes n value) (suffixes n value') s s'
  expressions : ∀ closing limited {s s'}, Side w false s s' →
    Follows w (facing .semicolon) (Joint w shapes.exprs) (expressions n closing limited)
      (expressions n closing limited) s s'
  expressionList : ∀ limited count {s s'}, Side w false s s' →
    Follows w (facing .semicolon) (Joint w shapes.exprs) (expressionList n limited count)
      (expressionList n limited count) s s'
  primary : ∀ {s s'}, Side w true s s' →
    Follows w never (Joint w shapes.expr) (primary n) (primary n) s s'

theorem rulesFollow_zero (w : Site) : RulesFollow w 0 where
  declarations _ _ _ _ := follows_outOfFuel
  declaration _ := follows_outOfFuel
  methodList _ := follows_outOfFuel
  functionRest _ _ := follows_outOfFuel
  variableRest _ := follows_outOfFuel
  block _ := follows_outOfFuel
  statement _ := follows_outOfFuel
  expressionStatement _ := follows_outOfFuel
  countedLoop _ _ _ := follows_outOfFuel
  loopStart _ := follows_outOfFuel
  optionalExpression _ _ _ _ := follows_outOfFuel
  expression _ := follows_outOfFuel
  lambda _ := follows_outOfFuel
  assignment _ := follows_outOfFuel
  conditional _ := follows_outOfFuel
  level _ _ _ _ := follows_outOfFuel
  levelRest _ _ _ _ _ _ _ := follows_outOfFuel
  operand _ _ _ _ := follows_outOfFuel
  unary _ := follows_outOfFuel
  suffixes _ _ := follows_outOfFuel
  expressions _ _ _ _ _ := follows_outOfFuel
  expressionList _ _ _ _ _ := follows_outOfFuel
  primary _ := follows_outOfFuel

theorem not_functionRest_of_facing {fuel : Nat} {name : Token} {decl : FunctionDecl} {s₁ : State}
    (h : facing .equal s) : functionRest fuel name s ≠ .ok decl s₁ := by
  cases fuel with
  | zero => nofun
  | succ fuel =>
    unfold functionRest
    exact not_expect_of_facing h (by decide)

/-- An expression starts with a token that one can start with. -/
theorem starts_of_expression {n : Nat} {e : Expr} {s₁ : State} (hs : s.Proper)
    (hrun : expression n s = .ok e s₁) (hquiet : s₁.reports = #[]) :
    Starts Kind.startsExpression s.rest := by
  obtain ⟨read, hread, hbuilds⟩ := ((rulesBuild n).expression s hs).reads hrun (by rw [hquiet]; rfl)
  rw [hread.rest]
  exact hbuilds.derives.startsExpression.append

theorem not_expression_of_starts {n : Nat} {e : Expr} {s₁ : State} {t : Token} {rest : List Token}
    (hs : s.Proper) (hrest : s.rest = t :: rest) (hkind : t.kind.startsExpression = false)
    (hrun : expression n s = .ok e s₁) : s₁.reports ≠ #[] := by
  intro hquiet
  obtain ⟨u, us, hu, hstarts⟩ := starts_of_expression hs hrun hquiet
  rw [hrest] at hu
  cases hu
  rw [hkind] at hstarts
  cases hstarts

/-- In front of a semicolon no step of a counted loop is read. -/
theorem not_optionalExpression_of_facing {n : Nat} {e? : Option Expr} {s₁ : State} (hs : s.Proper)
    (h : facing .semicolon s) (hrun : optionalExpression n .rightParen s = .ok e? s₁) :
    s₁.reports ≠ #[] := by
  cases n with
  | zero => cases hrun
  | succ n =>
    have hclosing : s.startsWith .rightParen = false := by
      rw [Bool.eq_false_iff]
      intro hclosing
      cases kind_eq_of_startsWith h hclosing
    obtain ⟨t, rest, hrest, hkind⟩ := State.exists_rest_of_startsWith h
    simp only [optionalExpression, Bind.bind, EStateM.bind, check, hclosing, Bool.false_eq_true,
      if_false, Functor.map, EStateM.map] at hrun
    cases hfirst : expression n s with
    | error e s₂ => simp only [hfirst, reduceCtorEq] at hrun
    | ok e s₂ =>
      simp only [hfirst] at hrun
      cases hrun
      exact not_expression_of_starts hs hrest (by rw [hkind]; rfl) hfirst

/-- The start of a variable declaration that is taken together with the assignment. -/
theorem follows_initializer {name equal : Token} (heven : s.Even s')
    (hname : name.kind = .identifier) (hequal : equal.kind = .equal)
    (hrest : s.rest = name :: equal :: (w.long ++ w.after))
    (hrest' : s'.rest = name :: equal :: (w.short ++ w.after)) (n : Nat) :
    Follows w never (Joint w shapes.stmt) (variableRest n) (variableRest n) s s' := by
  cases n with
  | zero => exact follows_outOfFuel
  | succ n =>
    unfold variableRest
    have hadvance : s.advance.rest = equal :: (w.long ++ w.after) := State.rest_advance hrest
    have hadvance' : s'.advance.rest = equal :: (w.short ++ w.after) := State.rest_advance hrest'
    refine follows_expect_of (by simp [State.startsWith, hrest, hrest']) fun _ => ?_
    refine follows_accept_of (by simp [State.startsWith, hadvance, hadvance']) (fun _ => ?_) ?_
    · refine .ite (fun _ => ?_) fun hno => absurd rfl hno
      have heven₂ := heven.advance.advance
      have hlike : shapes.ofKind .identifier s.next s'.next := by
        rw [State.next_of_rest hrest, State.next_of_rest hrest']
        exact ⟨shapes_refl name, hname⟩
      exact (follows_counting heven₂ (State.rest_advance hadvance) (State.rest_advance hadvance')
        n).loose heven₂ fun value value' s₃ s₃' hvalue h₃ =>
          follows_ended h₃ hvalue fun bs => .varValue hlike (hvalue bs)
    · intro hno
      simp [State.startsWith, hadvance, hequal] at hno

/-- Where `var` is read next, a variable declaration follows. -/
theorem RulesFollow.variable {n : Nat} (ih : RulesFollow w n) (h : Side w false s s')
    (hkind : s.next.kind = .varKw) :
    Follows w never (Joint w shapes.stmt) (Parser.variableRest n) (Parser.variableRest n) s.advance
      s'.advance := by
  rcases h.inside_or_here with hinside | ⟨hrest, hrest'⟩
  · have hadvance := hinside.advance
    rw [hkind] at hadvance
    exact ih.variableRest hadvance
  · rcases w.front_cases with ⟨hwhole, -⟩ | ⟨_, _, _, -, hname, hequal, hwhole, hbrief⟩
    · rw [State.next_of_rest (hrest.trans hwhole), w.target_kind] at hkind
      cases hkind
    · exact follows_initializer h.toEven.advance hname hequal
        (State.rest_advance (hrest.trans hwhole)) (State.rest_advance (hrest'.trans hbrief)) n

namespace RulesFollow

variable {n : Nat} (ih : RulesFollow w n)

include ih

theorem declarations_succ (inBlock : Bool) (h : Side w false s s') :
    Follows w never (Joint w shapes.stmts) (Parser.declarations (n + 1) inBlock)
      (Parser.declarations (n + 1) inBlock) s s' := by
  unfold Parser.declarations
  refine follows_atEnd h (.ite (fun _ => .pure ⟨fun _ => .nil, h⟩) fun _ => ?_)
  refine follows_check h (.ite (fun _ => .pure ⟨fun _ => .nil, h⟩) fun _ => ?_)
  refine (follows_recover (ih.declaration h)).bind h.toEven ?_
  rintro first first' s₁ s₁' ⟨hfirst, h₁⟩
  refine (ih.declarations inBlock h₁).joint h₁.toEven fun others others' s₂ s₂' hothers h₂ =>
    .pure ⟨?_, h₂⟩
  cases hfirst with
  | none => exact hothers
  | some hfirst => exact fun bs => .cons (hfirst bs) (hothers bs)

theorem declaration_succ (h : Side w false s s') :
    Follows w never (Joint w shapes.stmt) (Parser.declaration (n + 1)) (Parser.declaration (n + 1))
      s s' := by
  unfold Parser.declaration
  refine follows_peek h ?_
  cases hkind : s.next.kind with
  | classKw =>
    refine follows_keyword h hkind (by decide) (by decide) fun _ _ s₁ s₁' _ h₁ => ?_
    refine follows_name h₁ (fun _ _ _ _ hfacing => not_expect_of_facing hfacing (by decide)) ?_
    intro name name' s₂ s₂' hname h₂
    refine follows_expect h₂ (by decide) (by decide) fun _ _ s₃ s₃' _ h₃ => ?_
    refine (ih.methodList h₃).joint h₃.toEven fun methods methods' s₄ s₄' hmethods h₄ => ?_
    exact follows_expect h₄ (by decide) (by decide) fun _ _ s₅ s₅' _ h₅ =>
      .pure ⟨fun bs => .classDecl hname (hmethods (false :: bs)), h₅⟩
  | functionKw =>
    refine follows_keyword h hkind (by decide) (by decide) fun _ _ s₁ s₁' _ h₁ => ?_
    refine follows_name h₁ (fun name s₂ d s₃ hfacing hrun => ?_)
      fun name name' s₂ s₂' hname h₂ => ?_
    · obtain ⟨decl, s₄, hdecl, -⟩ := bind_eq_ok hrun
      exact not_functionRest_of_facing hfacing hdecl
    · refine (ih.functionRest hname h₂).joint h₂.toEven fun decl decl' s₃ s₃' hdecl h₃ => ?_
      exact .pure ⟨fun bs => .function (fun hnone => hdecl.1 hnone) (hdecl.2 _ bs), h₃⟩
  | varKw => exact follows_take_of (ih.variable h hkind)
  | _ => exact ih.statement h

theorem methodList_succ (h : Side w false s s') :
    Follows w never (Joint w shapes.functions) (Parser.methodList (n + 1))
      (Parser.methodList (n + 1)) s s' := by
  unfold Parser.methodList
  refine follows_atEnd h (.ite (fun _ => .pure ⟨fun _ => .nil, h⟩) fun _ => ?_)
  refine follows_check h (.ite (fun _ => .pure ⟨fun _ => .nil, h⟩) fun _ => ?_)
  refine follows_accept h (by decide) (by decide) fun _ s₁ s₁' h₁ => ?_
  refine follows_name h₁ (fun name s₂ d s₃ hfacing hrun => ?_) fun name name' s₂ s₂' hname h₂ => ?_
  · obtain ⟨decl, s₄, hdecl, -⟩ := bind_eq_ok hrun
    exact not_functionRest_of_facing hfacing hdecl
  · refine (ih.functionRest hname h₂).joint h₂.toEven fun method method' s₃ s₃' hmethod h₃ => ?_
    exact (ih.methodList h₃).joint h₃.toEven fun others others' s₄ s₄' hothers h₄ =>
      .pure ⟨fun bs => .cons (hmethod.2 false bs) (hothers bs), h₄⟩

theorem functionRest_succ {name name' : Token} (hname : shapes.ofKind .identifier name name')
    (h : Side w false s s') :
    Follows w never (Joint w shapes.function) (Parser.functionRest (n + 1) name)
      (Parser.functionRest (n + 1) name') s s' := by
  unfold Parser.functionRest
  refine follows_expect h (by decide) (by decide) fun _ _ s₁ s₁' _ h₁ => ?_
  refine (follows_parameters n h₁).bind_of h₁.toEven
    (fun _ _ _ _ hfacing => not_expect_of_facing hfacing (by decide)) ?_
  rintro params params' s₂ s₂' ⟨hparams, h₂⟩
  refine follows_expect h₂ (by decide) (by decide) fun _ _ s₃ s₃' _ h₃ => ?_
  refine follows_expect h₃ (by decide) (by decide) fun _ _ s₄ s₄' _ h₄ => ?_
  refine (follows_withLoops h₄ fun _ _ => ih.block).bind h₄.toEven ?_
  rintro body body' s₅ s₅' ⟨hbody, h₅⟩
  exact .pure ⟨⟨Option.some_ne_none name, fun _ bs =>
    .mk (.some hname) hparams (hbody (false :: bs))⟩, h₅⟩

theorem variableRest_succ (h : Side w true s s') :
    Follows w never (Joint w shapes.stmt) (Parser.variableRest (n + 1))
      (Parser.variableRest (n + 1)) s s' := by
  unfold Parser.variableRest
  refine follows_name_inside h fun name name' s₁ s₁' hname h₁ => ?_
  refine follows_accept h₁ (by decide) (by decide) fun taken s₂ s₂' h₂ => ?_
  refine .ite (fun _ => ?_) fun _ => ?_
  · exact (ih.expression h₂).loose h₂.toEven fun value value' s₃ s₃' hvalue h₃ =>
      follows_ended h₃ hvalue fun bs => .varValue hname (hvalue bs)
  · exact (follows_terminate _ (.inl h₂) .none).joint h₂.toEven fun _ _ s₃ s₃' _ h₃ =>
      .pure ⟨fun _ => .var hname, h₃⟩

theorem block_succ (h : Side w false s s') :
    Follows w never (Joint w shapes.stmts) (Parser.block (n + 1)) (Parser.block (n + 1)) s s' := by
  unfold Parser.block
  refine (ih.declarations true h).joint h.toEven fun body body' s₁ s₁' hbody h₁ => ?_
  exact follows_expect h₁ (by decide) (by decide) fun _ _ s₂ s₂' _ h₂ => .pure ⟨hbody, h₂⟩

theorem statement_succ (h : Side w false s s') :
    Follows w never (Joint w shapes.stmt) (Parser.statement (n + 1)) (Parser.statement (n + 1))
      s s' := by
  unfold Parser.statement
  refine follows_peek h ?_
  cases hkind : s.next.kind with
  | printKw =>
    refine follows_keyword h hkind (by decide) (by decide) fun _ _ s₁ s₁' _ h₁ => ?_
    exact (ih.expression h₁).loose h₁.toEven fun value value' s₂ s₂' hvalue h₂ =>
      follows_ended h₂ hvalue fun bs => .print (hvalue bs)
  | ifKw =>
    refine follows_keyword h hkind (by decide) (by decide) fun _ _ s₁ s₁' _ h₁ => ?_
    refine follows_expect h₁ (by decide) (by decide) fun _ _ s₂ s₂' _ h₂ => ?_
    refine (ih.expression h₂).loose h₂.toEven fun test test' s₃ s₃' htest h₃ => ?_
    refine follows_expect_loose h₃ (by decide) (by decide) (by decide) fun _ _ s₄ s₄' _ h₄ => ?_
    refine (ih.statement h₄).joint h₄.toEven fun yes yes' s₅ s₅' hyes h₅ => ?_
    refine follows_accept h₅ (by decide) (by decide) fun taken s₆ s₆' h₆ => ?_
    refine .ite (fun _ => ?_) fun _ => .pure ⟨fun bs => .ifThen (htest bs) (hyes bs), h₆⟩
    exact (ih.statement h₆).joint h₆.toEven fun no no' s₇ s₇' hno h₇ =>
      .pure ⟨fun bs => .ifElse (htest bs) (hyes bs) (hno bs), h₇⟩
  | leftBrace =>
    refine follows_keyword h hkind (by decide) (by decide) fun _ _ s₁ s₁' _ h₁ => ?_
    exact (ih.block h₁).joint h₁.toEven fun body body' s₂ s₂' hbody h₂ =>
      .pure ⟨fun bs => .block (hbody (false :: bs)), h₂⟩
  | whileKw =>
    refine follows_keyword h hkind (by decide) (by decide) fun _ _ s₁ s₁' _ h₁ => ?_
    refine follows_expect h₁ (by decide) (by decide) fun _ _ s₂ s₂' _ h₂ => ?_
    refine (ih.expression h₂).loose h₂.toEven fun test test' s₃ s₃' htest h₃ => ?_
    refine follows_expect_loose h₃ (by decide) (by decide) (by decide) fun _ _ s₄ s₄' _ h₄ => ?_
    exact (follows_withLoops h₄ fun _ _ => ih.statement).joint h₄.toEven
      fun body body' s₅ s₅' hbody h₅ => .pure ⟨fun bs => .loop (htest bs) (hbody bs), h₅⟩
  | forKw =>
    have hadvance := (h.inside_of_kind (by rw [hkind]; decide) (by rw [hkind]; decide)).advance
    refine follows_take_of (ih.countedLoop hkind ?_ (by rwa [hkind] at hadvance))
    cases hrest : s.rest with
    | nil =>
      rw [State.next, hrest] at hkind
      cases h.proper.symm.trans hkind
    | cons t rest =>
      rw [State.next_of_rest hrest, State.rest_advance hrest, ← hrest]
      exact h.suffix
  | breakKw =>
    exact follows_keyword h hkind (by decide) (by decide) fun keyword keyword' s₁ s₁' hkeyword h₁ =>
      follows_loopExit _ (fun _ => .exitLoop hkeyword.1) h₁
  | continueKw =>
    exact follows_keyword h hkind (by decide) (by decide) fun keyword keyword' s₁ s₁' hkeyword h₁ =>
      follows_loopExit _ (fun _ => .nextIteration hkeyword.1) h₁
  | returnKw =>
    refine follows_keyword h hkind (by decide) (by decide) ?_
    intro keyword keyword' s₁ s₁' hkeyword h₁
    refine follows_check h₁ (.ite (fun _ => ?_) fun _ => ?_)
    · exact (follows_terminate _ (.inl h₁) .none).joint h₁.toEven fun _ _ s₂ s₂' _ h₂ =>
        .pure ⟨fun _ => .result hkeyword.1, h₂⟩
    · exact (ih.expression h₁).loose h₁.toEven fun value value' s₂ s₂' hvalue h₂ =>
        follows_ended h₂ hvalue fun bs => .resultValue hkeyword.1 (hvalue bs)
  | _ => exact ih.expressionStatement h

theorem expressionStatement_succ (h : Side w false s s') :
    Follows w never (Joint w shapes.stmt) (Parser.expressionStatement (n + 1))
      (Parser.expressionStatement (n + 1)) s s' := by
  unfold Parser.expressionStatement
  exact (ih.expression h).loose h.toEven fun value value' s₁ s₁' hvalue h₁ =>
    follows_ended h₁ hvalue fun bs => .expression (hvalue bs)

theorem countedLoop_succ {keyword : Token} (hkeyword : keyword.kind = .forKw)
    (hsuffix : keyword :: s.rest <:+ w.before ++ w.whole) (h : Side w false s s') :
    Follows w never (Joint w shapes.stmt) (Parser.countedLoop (n + 1)) (Parser.countedLoop (n + 1))
      s s' := by
  unfold Parser.countedLoop
  refine follows_expect_of (h.startsWith _) fun hopening => ?_
  have h₁ := (h.inside_of_starts hopening (by decide) (by decide)).advance.loosen
  refine (ih.loopStart h₁).run.bind h₁.toEven ?_
  rintro start start' s₂ s₂' ⟨⟨hstart, h₂⟩, hrun₁, hquiet₂⟩
  refine (ih.optionalExpression _ h₂).run.bind h₂.toEven ?_
  rintro test test' s₃ s₃' ⟨⟨⟨htest, h₃⟩, hnone⟩, hrun₂, hquiet₃⟩
  have hcondition : Side w false s₃ s₃' ∨
      Taken w s₃ s₃' ∧ w.EndsCondition (w.before ++ w.front) := by
    cases test with
    | none => exact .inl (hnone rfl)
    | some test =>
      refine h₃.imp id fun htaken => ⟨htaken, ?_⟩
      obtain ⟨rs, hread₁, hbuilds₁⟩ :=
        ((rulesBuild n).loopStart _ h₁.proper).reads hrun₁ (by rw [hquiet₂]; rfl)
      obtain ⟨ts, hread₂, hbuilds₂⟩ :=
        ((rulesBuild n).optionalExpression _ _ h₂.proper).reads hrun₂ (by rw [hquiet₃]; rfl)
      obtain ⟨opening, rest, hrest, hkind⟩ := State.exists_rest_of_startsWith hopening
      have hsplit : rest = rs ++ s₂.rest := (State.rest_advance hrest).symm.trans hread₁.rest
      rw [hrest, hsplit] at hsuffix
      cases hbuilds₂.derives with
      | someExpression hderives =>
        exact endsCondition h₂ hkeyword hkind hbuilds₁.derives hderives
          (hread₂.rest.trans (by rw [htaken.rest])) hsuffix
  refine follows_condition hcondition (fun _ s₄ d s₇ hfacing hs₄ hrun hquiet => ?_)
    fun _ _ s₄ s₄' h₄ => ?_
  · obtain ⟨step?, s₅, hstep, hrun₅⟩ := bind_eq_ok hrun
    have hs₅ : s₅.Proper := Leading.proper hs₄ hstep
    exact not_optionalExpression_of_facing hs₄ hfacing hstep (Leading.quiet hs₅ hrun₅ hquiet)
  · refine (ih.optionalExpression _ h₄).bind h₄.toEven ?_
    rintro step step' s₅ s₅' ⟨⟨hstep, h₅⟩, -⟩
    refine follows_expect_loose h₅ (by decide) (by decide) (by decide) fun _ _ s₆ s₆' _ h₆ => ?_
    exact (follows_withLoops h₆ fun _ _ => ih.statement).joint h₆.toEven
      fun body body' s₇ s₇' hbody h₇ => .pure ⟨like_countedLoop hstart htest hstep hbody, h₇⟩

theorem loopStart_succ (h : Side w false s s') :
    Follows w never (Joint w (Option.Rel shapes.stmt)) (Parser.loopStart (n + 1))
      (Parser.loopStart (n + 1)) s s' := by
  unfold Parser.loopStart
  refine follows_accept h (by decide) (by decide) fun closed s₁ s₁' h₁ => ?_
  refine .ite (fun _ => .pure ⟨.none, h₁⟩) fun _ => ?_
  refine follows_accept_of (h₁.startsWith _) (fun hstarts => ?_) fun _ => ?_
  · refine .ite (fun _ => ?_) fun hno => absurd rfl hno
    exact (ih.variable h₁ (kind_next_of_startsWith hstarts)).map fun _ _ _ _ hs =>
      ⟨.some hs.1, hs.2⟩
  · refine .ite (fun hyes => by cases hyes) fun _ => ?_
    exact (ih.expressionStatement h₁).map fun _ _ _ _ hs => ⟨.some hs.1, hs.2⟩

theorem optionalExpression_succ (closing : Kind) (h : Side w false s s') :
    Follows w never
      (fun e? e?' s₁ s₁' => Loose w (Option.Rel shapes.expr) e? e?' s₁ s₁' ∧
        (e? = none → Side w false s₁ s₁'))
      (Parser.optionalExpression (n + 1) closing) (Parser.optionalExpression (n + 1) closing)
      s s' := by
  unfold Parser.optionalExpression
  refine follows_check h (.ite (fun _ => .pure ⟨⟨.none, .inl h⟩, fun _ => h⟩) fun _ => ?_)
  refine (ih.expression h).map fun e e' s₁ s₁' he => ⟨⟨.some he.1, he.2⟩, fun hnone => ?_⟩
  cases hnone

/-- Away from the place an expression is a step, a lambda or an assignment in both texts. -/
theorem expression_inside (h : Side w true s s') :
    Follows w never (Loose w shapes.expr) (Parser.expression (n + 1)) (Parser.expression (n + 1))
      s s' := by
  have hrest : Follows w never (Loose w shapes.expr)
      (if s.startsStep then countingStep
        else if s.startsLambda then Parser.lambda n else Parser.assignment n)
      (if s.startsStep then countingStep
        else if s.startsLambda then Parser.lambda n else Parser.assignment n) s s' := by
    refine .ite (fun hstep => ?_) fun _ => .ite (fun _ => ih.lambda h) fun _ => ?_
    · exact (follows_countingStep h hstep).mono fun _ _ _ _ he => ⟨he.1, .inl he.2⟩
    · exact (ih.assignment h).mono fun _ _ _ _ he => ⟨he.1, .inl he.2⟩
  unfold Parser.expression
  refine hrest.congr rfl ?_
  rw [get_bind_apply, h.startsStep, h.startsLambda]

theorem expression_succ (h : Side w false s s') :
    Follows w never (Loose w shapes.expr) (Parser.expression (n + 1)) (Parser.expression (n + 1))
      s s' := by
  rcases h.inside_or_here with hinside | ⟨hrest, hrest'⟩
  · exact ih.expression_inside hinside
  · rcases w.front_cases with ⟨hwhole, hbrief⟩ | ⟨_, _, _, hkeyword, -, -, hwhole, -⟩
    · exact follows_counting h.toEven (hrest.trans hwhole) (hrest'.trans hbrief) (n + 1)
    · -- an expression does not start with `var`
      intro e s₁ hrun hquiet
      have hkind : Kind.varKw.startsExpression = false := by decide
      exact absurd hquiet
        (not_expression_of_starts h.proper (hrest.trans hwhole) (hkeyword ▸ hkind) hrun)

theorem lambda_succ (h : Side w true s s') :
    Follows w never (Loose w shapes.expr) (Parser.lambda (n + 1)) (Parser.lambda (n + 1)) s s' := by
  unfold Parser.lambda
  refine follows_take h rfl fun _ _ s₁ s₁' _ h₁ => ?_
  refine (follows_parameters n h₁).bind_of h₁.toEven
    (fun _ _ _ _ hfacing => not_expect_of_facing hfacing (by decide)) ?_
  rintro params params' s₂ s₂' ⟨hparams, h₂⟩
  refine follows_expect h₂ (by decide) (by decide) fun _ _ s₃ s₃' _ h₃ => ?_
  refine follows_expect h₃ (by decide) (by decide) fun arrow arrow' s₄ s₄' harrow h₄ => ?_
  refine follows_accept h₄ (by decide) (by decide) fun taken s₅ s₅' h₅ => ?_
  refine .ite (fun _ => ?_) fun _ => ?_
  · exact (follows_withLoops h₅ fun _ _ => ih.block).joint h₅.toEven
      fun body body' s₆ s₆' hbody h₆ =>
        .pure ⟨fun bs => .lambda (.mk .none hparams (hbody (false :: bs))), .inl h₆⟩
  · refine (ih.expression h₅).loose h₅.toEven fun value value' s₆ s₆' hvalue h₆ =>
      .pure ⟨fun bs => .lambda ?_, h₆⟩
    exact .mk .none hparams (.cons (.resultValue harrow.1 (hvalue (false :: bs))) .nil)

theorem assignment_succ (h : Side w true s s') :
    Follows w never (Joint w shapes.expr) (Parser.assignment (n + 1)) (Parser.assignment (n + 1))
      s s' := by
  unfold Parser.assignment
  refine (ih.conditional h).bind_leading h.toEven ?leading ?leading (fun _ _ _ _ => False.elim)
    ?next
  case leading =>
    refine fun target => .bind inferInstance fun equals? => ?_
    cases equals? with
    | none => infer_instance
    | some equals =>
      refine .bind inferInstance fun value => ?_
      split <;> infer_instance
  case next =>
    rintro target target' s₁ s₁' ⟨htarget, h₁⟩
    refine follows_acceptToken h₁ rfl rfl (fun equals equals' s₂ s₂' hequals hamong h₂ => ?_)
      (.pure ⟨htarget, h₁⟩)
    have hkind : equals.kind = .equal := of_decide_eq_true hamong
    rw [hkind] at h₂
    refine (ih.assignment h₂).bind_leading h₂.toEven (fun value => ?_) (fun value => ?_)
      (fun _ _ _ _ => False.elim) ?_
    · split <;> infer_instance
    · split <;> infer_instance
    · rintro value value' s₃ s₃' ⟨hvalue, h₃⟩
      have hassigned := like_assigned? htarget hvalue
      generalize target.assigned? value = assigned at hassigned ⊢
      generalize target'.assigned? value' = assigned' at hassigned ⊢
      cases hassigned with
      | none => exact follows_complaint h₃.proper rfl
      | some he => exact .pure ⟨he, h₃⟩

theorem conditional_succ (h : Side w true s s') :
    Follows w never (Joint w shapes.expr) (Parser.conditional (n + 1)) (Parser.conditional (n + 1))
      s s' := by
  unfold Parser.conditional
  refine (ih.level _ h).joint h.toEven fun test test' s₁ s₁' htest h₁ => ?_
  refine follows_accept h₁ (by decide) (by decide) fun taken s₂ s₂' h₂ => ?_
  refine .ite (fun _ => ?_) fun _ => .pure ⟨htest, h₂⟩
  refine (ih.expression h₂).loose h₂.toEven fun yes yes' s₃ s₃' hyes h₃ => ?_
  refine follows_expect_loose h₃ (by decide) (by decide) (by decide) fun _ _ s₄ s₄' _ h₄ => ?_
  exact (ih.conditional h₄).joint h₄.toEven fun no no' s₅ s₅' hno h₅ =>
    .pure ⟨fun bs => .conditional (htest bs) (hyes bs) (hno bs), h₅⟩

theorem level_succ (l : Level) (h : Side w true s s') :
    Follows w never (Joint w shapes.expr) (Parser.level (n + 1) l) (Parser.level (n + 1) l)
      s s' := by
  unfold Parser.level
  exact (ih.operand l h).joint h.toEven fun left left' s₁ s₁' hleft h₁ => ih.levelRest l hleft h₁

theorem levelRest_succ (l : Level) {left left' : Expr} (hleft : shapes.expr left left')
    (h : Side w false s s') :
    Follows w never (Joint w shapes.expr) (Parser.levelRest (n + 1) l left)
      (Parser.levelRest (n + 1) l left') s s' := by
  unfold Parser.levelRest
  refine follows_acceptToken h (by cases l <;> rfl) (by cases l <;> rfl)
    (fun operator operator' s₁ s₁' hoperator hamong h₁ => ?_) (.pure ⟨hleft, h⟩)
  rw [Level.narrows_of_operators hamong] at h₁
  refine (ih.operand l h₁).joint h₁.toEven fun right right' s₂ s₂' hright h₂ => ?_
  exact ih.levelRest l (l.like_join hleft hoperator hamong hright) h₂

theorem operand_succ (l : Level) (h : Side w true s s') :
    Follows w never (Joint w shapes.expr) (Parser.operand (n + 1) l) (Parser.operand (n + 1) l)
      s s' := by
  unfold Parser.operand
  cases l.tighter? with
  | none => exact ih.unary h
  | some tighter => exact ih.level tighter h

theorem unary_succ (h : Side w true s s') :
    Follows w never (Joint w shapes.expr) (Parser.unary (n + 1)) (Parser.unary (n + 1)) s s' := by
  unfold Parser.unary
  refine follows_acceptToken h rfl rfl (fun operator operator' s₁ s₁' hoperator hamong h₁ => ?_) ?_
  · have hkind : operator.kind.narrows = true ∧ ¬operator.kind.IsKeyword := by
      simp only [Bool.or_eq_true, decide_eq_true_eq] at hamong
      rcases hamong with hkind | hkind <;> rw [hkind] <;> exact ⟨rfl, by decide⟩
    rw [hkind.1] at h₁
    exact (ih.unary h₁).joint h₁.toEven fun value value' s₂ s₂' hvalue h₂ =>
      .pure ⟨fun bs => .unary ⟨hoperator, hkind.2⟩ (hvalue bs), h₂⟩
  · exact (ih.primary h).joint h.toEven fun value value' s₁ s₁' hvalue h₁ => ih.suffixes hvalue h₁

theorem suffixes_succ {value value' : Expr} (hvalue : shapes.expr value value')
    (h : Side w false s s') :
    Follows w never (Joint w shapes.expr) (Parser.suffixes (n + 1) value)
      (Parser.suffixes (n + 1) value') s s' := by
  unfold Parser.suffixes
  refine follows_peek h ?_
  cases hkind : s.next.kind with
  | leftParen =>
    refine follows_keyword h hkind (by decide) (by decide) fun _ _ s₁ s₁' _ h₁ => ?_
    refine (ih.expressions _ _ h₁).bind_of h₁.toEven
      (fun _ _ _ _ hfacing => not_expect_of_facing hfacing (by decide)) ?_
    rintro arguments arguments' s₂ s₂' ⟨harguments, h₂⟩
    exact follows_expect h₂ (by decide) (by decide) fun paren paren' s₃ s₃' hparen h₃ =>
      ih.suffixes (fun bs => .call (hvalue bs) (hparen.plain (by decide)) (harguments bs)) h₃
  | dot =>
    refine follows_keyword h hkind (by decide) (by decide) fun _ _ s₁ s₁' _ h₁ => ?_
    exact follows_name_inside h₁ fun name name' s₂ s₂' hname h₂ =>
      ih.suffixes (fun bs => .get (hvalue bs) (hname.plain (by decide))) h₂
  | leftBracket =>
    refine follows_keyword h hkind (by decide) (by decide) ?_
    intro bracket bracket' s₁ s₁' hbracket h₁
    refine (ih.expression h₁).loose h₁.toEven fun key key' s₂ s₂' hkey h₂ => ?_
    exact follows_expect_loose h₂ (by decide) (by decide) (by decide) fun _ _ s₃ s₃' _ h₃ =>
      ih.suffixes (fun bs => .index (hbracket.plain (by decide)) (hvalue bs) (hkey bs)) h₃
  | _ => exact .pure ⟨hvalue, h⟩

theorem expressions_succ (closing : Kind) (limited : Bool) (h : Side w false s s') :
    Follows w (facing .semicolon) (Joint w shapes.exprs)
      (Parser.expressions (n + 1) closing limited) (Parser.expressions (n + 1) closing limited)
      s s' := by
  unfold Parser.expressions
  refine follows_check h (.ite (fun _ => .pure ⟨fun _ => .nil, h⟩) fun _ => ?_)
  exact ih.expressionList limited 0 h

theorem expressionList_succ (limited : Bool) (count : Nat) (h : Side w false s s') :
    Follows w (facing .semicolon) (Joint w shapes.exprs)
      (Parser.expressionList (n + 1) limited count) (Parser.expressionList (n + 1) limited count)
      s s' := by
  unfold Parser.expressionList
  refine .ite (fun _ => follows_complaint h.proper rfl) fun _ => ?_
  refine (ih.expression h).bind h.toEven ?_
  rintro value value' s₁ s₁' ⟨hvalue, h₁ | htaken⟩
  · refine follows_accept h₁ (by decide) (by decide) fun taken s₂ s₂' h₂ => ?_
    refine .ite (fun _ => ?_) fun _ => .pure ⟨fun bs => .cons (hvalue bs) .nil, h₂⟩
    refine (ih.expressionList limited (count + 1) h₂).bind_of h₂.toEven
      (fun values s₃ _ s₄ hfacing hrun => ?_) ?_
    · cases hrun
      exact hfacing
    · rintro values values' s₃ s₃' ⟨hvalues, h₃⟩
      exact .pure ⟨fun bs => .cons (hvalue bs) (hvalues bs), h₃⟩
  · -- in the first text the semicolon stands where a comma or the closing token should
    intro values s₂ hrun _
    have hcomma : s₁.startsWith .comma = false := by
      rw [Bool.eq_false_iff]
      intro hcomma
      cases kind_eq_of_startsWith htaken.starts hcomma
    simp only [Bind.bind, EStateM.bind, accept, hcomma, Bool.false_eq_true, if_false] at hrun
    cases hrun
    exact .inl htaken.starts

theorem primary_succ (h : Side w true s s') :
    Follows w never (Joint w shapes.expr) (Parser.primary (n + 1)) (Parser.primary (n + 1))
      s s' := by
  unfold Parser.primary
  refine follows_peek h ?_
  cases hkind : s.next.kind with
  | falseKw | trueKw | nullKw | undefinedKw | newlineKw | number | string =>
    exact follows_take h hkind fun _ _ s₁ s₁' _ h₁ => .pure ⟨fun _ => .literal, h₁.loosen⟩
  | selfKw =>
    refine follows_take h hkind fun keyword keyword' s₁ s₁' hkeyword h₁ => ?_
    exact follows_fresh h₁ fun id id' s₂ s₂' h₂ =>
      .pure ⟨fun _ => .self ⟨trivial, hkeyword.1, .inr hkeyword.2⟩, h₂⟩
  | identifier =>
    refine follows_take h hkind fun name name' s₁ s₁' hname h₁ => ?_
    exact follows_fresh h₁ fun id id' s₂ s₂' h₂ =>
      .pure ⟨fun _ => .var ⟨trivial, hname.1, .inl hname.2⟩, h₂⟩
  | leftParen =>
    refine follows_take h hkind fun _ _ s₁ s₁' _ h₁ => ?_
    refine (ih.expression h₁).loose h₁.toEven fun inner inner' s₂ s₂' hinner h₂ => ?_
    exact follows_expect_loose h₂ (by decide) (by decide) (by decide) fun _ _ s₃ s₃' _ h₃ =>
      .pure ⟨fun bs => .group (hinner bs), h₃⟩
  | leftBracket =>
    refine follows_take h hkind fun bracket bracket' s₁ s₁' hbracket h₁ => ?_
    refine (ih.expressions _ _ h₁).bind_of h₁.toEven
      (fun _ _ _ _ hfacing => not_expect_of_facing hfacing (by decide)) ?_
    rintro elements elements' s₂ s₂' ⟨helements, h₂⟩
    exact follows_expect h₂ (by decide) (by decide) fun _ _ s₃ s₃' _ h₃ =>
      .pure ⟨fun bs => .array (hbracket.plain (by decide)) (helements bs), h₃⟩
  | _ => exact follows_fail _

end RulesFollow

/-- **Every rule follows.** -/
theorem rulesFollow (w : Site) (n : Nat) : RulesFollow w n := by
  induction n with
  | zero => exact rulesFollow_zero w
  | succ n ih =>
    exact
      { declarations := fun inBlock _ _ => ih.declarations_succ inBlock
        declaration := ih.declaration_succ
        methodList := ih.methodList_succ
        functionRest := ih.functionRest_succ
        variableRest := ih.variableRest_succ
        block := ih.block_succ
        statement := ih.statement_succ
        expressionStatement := ih.expressionStatement_succ
        countedLoop := ih.countedLoop_succ
        loopStart := ih.loopStart_succ
        optionalExpression := fun closing _ _ => ih.optionalExpression_succ closing
        expression := ih.expression_succ
        lambda := ih.lambda_succ
        assignment := ih.assignment_succ
        conditional := ih.conditional_succ
        level := fun l _ _ => ih.level_succ l
        levelRest := fun l _ _ _ _ => ih.levelRest_succ l
        operand := fun l _ _ => ih.operand_succ l
        unary := ih.unary_succ
        suffixes := ih.suffixes_succ
        expressions := fun closing limited _ _ => ih.expressions_succ closing limited
        expressionList := fun limited count _ _ => ih.expressionList_succ limited count
        primary := ih.primary_succ }

end Parser

end Roteiro
