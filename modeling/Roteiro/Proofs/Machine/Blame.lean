import Roteiro.Proofs.Machine.Code
import Roteiro.Proofs.Tree.Blamed

/-!
# Where failures come from

An evaluation that fails passes on the failure of an evaluation that it has started, or it fails by
itself. Each evaluation that can fail by itself has one token for that: `Task.blames?`. So every
failure of a run is blamed on the token of an evaluation that the run has come to.

There is one more failure, which is blamed on a token that no source has: that an initializer, when
its body has ended, does not find its receiver.

* `accounts`: one evaluation, and those that it starts.
* `failure_reached`: the evaluation that a failure of a program comes from.
* `blames_in_code`: the token stands in the program or in code that was in the store before.
-/

namespace Roteiro

namespace Machine

/-- The token that an evaluation blames its own failures on. -/
def Task.blames? : Task → Option Token
  | eval (.unary operator _) => some operator
  | eval (.binary _ operator _) => some operator
  | eval (.var _ name) => some name
  | eval (.self _ keyword) => some keyword
  | eval (.assign _ name _) => some name
  | eval (.index bracket _ _) => some bracket
  | eval (.indexSet bracket _ _ _) => some bracket
  | eval (.get _ name) => some name
  | eval (.set _ name _) => some name
  | call _ paren _ => some paren
  | _ => none

/-- The evaluation fails. -/
def Moment.Fails (M : Moment) (e : RuntimeError) : Prop :=
  ∃ m', M.task.run M.fuel M.machine = .error (.failed e) m'

/-- The body of an initializer has ended, and the receiver is not found. -/
inductive LosesReceiver : Moment → Prop
  | mk {n c paren vs m flow m₁} (hinit : c.isInitializer = true)
    (hbody : execAll n c.decl.body (m.enter c.frame (argumentBindings c vs)) = .ok flow m₁)
    (hlost : m₁.store.lookupAt? c.frame 0 selfName = none) :
    LosesReceiver ⟨n + 1, .apply c paren vs, m⟩

/-- A failure of the evaluation `M` is that of an evaluation which `M` has started, or it is blamed
on the token of `M`, unless `M` has lost a receiver. -/
def Accounts (M : Moment) (e : RuntimeError) : Prop :=
  (∃ M', Within M' M ∧ M'.Fails e) ∨ M.task.blames? = some e.token ∨ LosesReceiver M

/-! ### Steps in sequence -/

/-- Whatever the step fails with is one of these failures. -/
def FailsAmong (T : RuntimeError → Prop) {α : Type} (step : Run α) (m : Machine) : Prop :=
  ∀ e m', step m = .error (.failed e) m' → T e

section FailsAmong

variable {T : RuntimeError → Prop} {α β : Type} {act : Run α} {f : α → Run β} {m m' : Machine}

theorem failsAmong_pure (a : α) : FailsAmong T (pure a) m := by
  intro e m' hrun
  cases hrun

theorem FailsAmong.bind (h : FailsAmong T act m)
    (hf : ∀ a m₁, act m = .ok a m₁ → FailsAmong T (f a) m₁) : FailsAmong T (act >>= f) m := by
  intro e m' hrun
  simp only [Bind.bind, EStateM.bind] at hrun
  cases hact : act m with
  | ok a m₁ =>
    rw [hact] at hrun
    exact hf a m₁ hact e m' hrun
  | error halt m₁ =>
    rw [hact] at hrun
    cases hrun
    exact h e _ hact

/-- Behind a step that went well. -/
theorem FailsAmong.after {a : α} (hact : act m = .ok a m') (hf : FailsAmong T (f a) m') :
    FailsAmong T (act >>= f) m := by
  intro e m₂ hrun
  simp only [Bind.bind, EStateM.bind, hact] at hrun
  exact hf e m₂ hrun

theorem failsAmong_fail {t : Token} (ht : ∀ failure, T ⟨t, failure⟩) (failure : Failure) :
    FailsAmong T (fail t failure : Run α) m := by
  intro e m' hrun
  cases hrun
  exact ht failure

theorem failsAmong_orFail {t : Token} (ht : ∀ failure, T ⟨t, failure⟩)
    (result : Except Failure α) : FailsAmong T (orFail t result) m := by
  cases result with
  | ok a => exact failsAmong_pure a
  | error failure => exact failsAmong_fail ht failure

theorem FailsAmong.inNewFrame (h : FailsAmong T act (m.enter m.current [])) :
    FailsAmong T (inNewFrame act) m := by
  intro e m' hrun
  rw [inNewFrame_eq] at hrun
  split at hrun
  · cases hrun
  · next hact =>
    cases hrun
    exact h e _ hact

theorem failsAmong_readName {name : Token} (ht : ∀ failure, T ⟨name, failure⟩) (id : Nat) :
    FailsAmong T (readName id name) m := by
  intro e m' hrun
  unfold readName at hrun
  dsimp only at hrun
  split at hrun
  · cases hrun
  · exact failsAmong_fail ht _ e m' hrun

theorem failsAmong_assignName {name : Token} (ht : ∀ failure, T ⟨name, failure⟩) (id : Nat)
    (v : Value) : FailsAmong T (assignName id name v) m := by
  intro e m' hrun
  unfold assignName at hrun
  split at hrun
  · cases hrun
  · exact failsAmong_fail ht _ e m' hrun

theorem failsAmong_arrayAt {bracket : Token} (ht : ∀ failure, T ⟨bracket, failure⟩) (v : Value) :
    FailsAmong T (arrayAt bracket v) m := by
  cases v with
  | array a => exact failsAmong_pure a
  | _ => exact failsAmong_fail ht _

theorem failsAmong_keyAt {bracket : Token} (ht : ∀ failure, T ⟨bracket, failure⟩) (v : Value) :
    FailsAmong T (keyAt bracket v) m := by
  unfold keyAt
  cases v.key? with
  | some k => exact failsAmong_pure k
  | none => exact failsAmong_fail ht _

theorem FailsAmong.checkArity {paren : Token} (ht : ∀ failure, T ⟨paren, failure⟩)
    {expected got : Nat} {next : Unit → Run β} (h : expected = got → FailsAmong T (next ()) m) :
    FailsAmong T (checkArity paren expected got >>= next) m := by
  unfold Machine.checkArity
  split
  · next heq => exact h heq
  · exact (failsAmong_fail ht _).bind nofun

theorem failsAmong_callBuiltin {paren : Token} (ht : ∀ failure, T ⟨paren, failure⟩) (b : Builtin)
    (vs : List Value) : FailsAmong T (callBuiltin b paren vs) m := by
  intro e m' hrun
  unfold callBuiltin at hrun
  split at hrun
  · cases hrun
  · exact failsAmong_fail ht _ e m' hrun

theorem failsAmong_property {name : Token} (ht : ∀ failure, T ⟨name, failure⟩)
    (receiver : Ref .instances) : FailsAmong T (property receiver name) m := by
  unfold property
  refine .after rfl ?_
  split
  · exact failsAmong_pure _
  · refine .after rfl ?_
    split
    · exact .after rfl (.after rfl (failsAmong_pure _))
    · exact failsAmong_fail ht _

/-- Only an initializer that does not find its receiver fails when its body has ended. -/
theorem failsAmong_callResult {c : Closure} {paren : Token} (flow : Flow)
    (h : c.isInitializer = true → m.store.lookupAt? c.frame 0 selfName = none →
      T ⟨⟨.selfKw, selfName, paren.line⟩, .undefinedVariable selfName⟩) :
    FailsAmong T (callResult c paren flow) m := by
  unfold callResult
  split
  · next hinit =>
    refine .after rfl ?_
    split
    · exact failsAmong_pure _
    · next hlost =>
      intro e m' hrun
      cases hrun
      exact h hinit hlost
  · split <;> exact failsAmong_pure _

end FailsAmong

/-! ### One evaluation -/

section Accounts

variable {n : Nat} {m : Machine}

/-- What an evaluation inside of another one fails with. -/
theorem Within.accounts {M' M : Moment} (h : Within M' M) :
    FailsAmong (Accounts M) (M'.task.run M'.fuel) M'.machine :=
  fun _ m' hrun => .inl ⟨M', h, m', hrun⟩

/-- A failure that is blamed on the token of the evaluation. -/
theorem accounts_own {M : Moment} {t : Token} (h : M.task.blames? = some t) (failure : Failure) :
    Accounts M ⟨t, failure⟩ :=
  .inr (.inl h)

theorem exec_accounts (s : Stmt) :
    FailsAmong (Accounts ⟨n + 1, .exec s, m⟩) (exec (n + 1) s) m := by
  unfold exec
  cases s with
  | expression e => exact (Within.expression.accounts).bind fun v m₁ _ => failsAmong_pure _
  | print e =>
    refine (Within.print.accounts).bind fun v m₁ _ => ?_
    exact .after rfl (.after rfl (failsAmong_pure _))
  | var name e? =>
    cases e? with
    | none => exact .after rfl (failsAmong_pure _)
    | some e =>
      exact (Within.declared.accounts).bind fun v m₁ _ => .after rfl (failsAmong_pure _)
  | block body => exact .inNewFrame Within.block.accounts
  | ifElse test yes no? =>
    refine (Within.choice.accounts).bind fun v m₁ htest => ?_
    split
    · next hv => exact (Within.chosenYes htest hv).accounts
    · next hv =>
      cases no? with
      | none => exact failsAmong_pure _
      | some no => exact (Within.chosenNo htest (Bool.eq_false_iff.mpr hv)).accounts
  | loop test body step => exact Within.loop.accounts
  | exitLoop keyword | nextIteration keyword => exact failsAmong_pure _
  | function decl => exact .after rfl (.after rfl (failsAmong_pure _))
  | result keyword e? =>
    cases e? with
    | none => exact failsAmong_pure _
    | some e => exact (Within.result.accounts).bind fun v m₁ _ => failsAmong_pure _
  | classDecl name methods => exact .after rfl (.after rfl (failsAmong_pure _))

theorem execAll_accounts (ss : List Stmt) :
    FailsAmong (Accounts ⟨n + 1, .execAll ss, m⟩) (execAll (n + 1) ss) m := by
  unfold execAll
  cases ss with
  | nil => exact failsAmong_pure _
  | cons s ss =>
    refine (Within.first.accounts).bind fun flow m₁ hfirst => ?_
    cases flow with
    | normal => exact (Within.others hfirst).accounts
    | _ => exact failsAmong_pure _

theorem execLoop_accounts (test : Expr) (body : Stmt) (step : Option Stmt) :
    FailsAmong (Accounts ⟨n + 1, .execLoop test body step, m⟩) (execLoop (n + 1) test body step)
      m := by
  unfold execLoop
  refine (Within.loopTest.accounts).bind fun v m₁ htest => ?_
  split
  · next hv =>
    refine (Within.loopBody htest hv).accounts.bind fun flow m₂ hbody => ?_
    cases flow with
    | normal => exact (Within.loopAgain htest hv hbody).accounts
    | exitLoop => exact failsAmong_pure _
    | nextIteration =>
      cases step with
      | none => exact (Within.loopCutShort htest hv hbody).accounts
      | some s =>
        refine (FailsAmong.inNewFrame (Within.loopStep htest hv hbody).accounts).bind
          fun flow m₃ hstep => ?_
        obtain ⟨m₄, hrun, rfl⟩ := inNewFrame_ok hstep
        exact (Within.loopStepped htest hv hbody hrun).accounts
    | result v => exact failsAmong_pure _
  · exact failsAmong_pure _

theorem eval_accounts (e : Expr) :
    FailsAmong (Accounts ⟨n + 1, .eval e, m⟩) (eval (n + 1) e) m := by
  -- whichever check fails, it blames the same token
  have hown : ∀ {t}, (Task.eval e).blames? = some t → ∀ failure,
      Accounts ⟨n + 1, .eval e, m⟩ ⟨t, failure⟩ := fun h => accounts_own h
  unfold eval
  cases e with
  | literal value => exact failsAmong_pure _
  | group inner => exact Within.group.accounts
  | unary operator operand =>
    exact (Within.unary.accounts).bind fun v m₁ _ => failsAmong_orFail (hown rfl) _
  | binary left operator right =>
    refine (Within.binaryLeft.accounts).bind fun l m₁ hleft => ?_
    refine (Within.binaryRight hleft).accounts.bind fun r m₂ _ => ?_
    exact .after rfl (failsAmong_orFail (hown rfl) _)
  | logical left operator right =>
    refine (Within.logicalLeft.accounts).bind fun l m₁ hleft => ?_
    by_cases hsettled : (if operator.kind = .orKw then l.truthy else !l.truthy) = true
    · rw [if_pos hsettled]
      exact failsAmong_pure _
    · rw [if_neg hsettled]
      exact (Within.logicalRight hleft (Bool.eq_false_iff.mpr hsettled)).accounts
  | conditional test yes no =>
    refine (Within.conditionalTest.accounts).bind fun v m₁ htest => ?_
    split
    · next hv => exact (Within.conditionalYes htest hv).accounts
    · next hv => exact (Within.conditionalNo htest (Bool.eq_false_iff.mpr hv)).accounts
  | var id name | self id name => exact failsAmong_readName (hown rfl) id
  | assign id name e =>
    refine (Within.assign.accounts).bind fun v m₁ _ => ?_
    exact (failsAmong_assignName (hown rfl) id v).bind fun _ m₂ _ => failsAmong_pure _
  | call callee paren arguments =>
    refine (Within.callee.accounts).bind fun f m₁ hcallee => ?_
    refine (Within.arguments hcallee).accounts.bind fun vs m₂ harguments => ?_
    exact (Within.call hcallee harguments).accounts
  | lambda decl => exact .after rfl (failsAmong_pure _)
  | array bracket elements =>
    exact (Within.elements.accounts).bind fun vs m₁ _ => .after rfl (failsAmong_pure _)
  | index bracket base key =>
    refine (Within.indexBase.accounts).bind fun b m₁ hbase => ?_
    refine (Within.indexKey hbase).accounts.bind fun k m₂ _ => ?_
    refine (failsAmong_arrayAt (hown rfl) b).bind fun a m₃ _ => ?_
    refine (failsAmong_keyAt (hown rfl) k).bind fun k m₄ _ => .after rfl ?_
    split
    · exact failsAmong_pure _
    · exact failsAmong_fail (hown rfl) _
  | indexSet bracket base key e =>
    refine (Within.indexSetBase.accounts).bind fun b m₁ hbase => ?_
    refine (Within.indexSetKey hbase).accounts.bind fun k m₂ hkey => ?_
    refine (Within.indexSetValue hbase hkey).accounts.bind fun v m₃ _ => ?_
    refine (failsAmong_arrayAt (hown rfl) b).bind fun a m₄ _ => ?_
    refine (failsAmong_keyAt (hown rfl) k).bind fun k m₅ _ => ?_
    exact .after rfl (failsAmong_pure _)
  | get object name =>
    refine (Within.getObject.accounts).bind fun v m₁ hobject => ?_
    split
    · exact failsAmong_property (hown rfl) _
    · exact failsAmong_fail (hown rfl) _
  | set object name e =>
    refine (Within.setObject.accounts).bind fun v m₁ hobject => ?_
    split
    · refine (Within.setValue hobject).accounts.bind fun v m₂ _ => ?_
      exact .after rfl (failsAmong_pure _)
    · exact failsAmong_fail (hown rfl) _

theorem evalAll_accounts (es : List Expr) :
    FailsAmong (Accounts ⟨n + 1, .evalAll es, m⟩) (evalAll (n + 1) es) m := by
  unfold evalAll
  cases es with
  | nil => exact failsAmong_pure _
  | cons e es =>
    refine (Within.element.accounts).bind fun v m₁ hfirst => ?_
    exact (Within.otherElements hfirst).accounts.bind fun vs m₂ _ => failsAmong_pure _

theorem call_accounts (callee : Value) (paren : Token) (vs : List Value) :
    FailsAmong (Accounts ⟨n + 1, .call callee paren vs, m⟩) (call (n + 1) callee paren vs) m := by
  have hparen : ∀ failure, Accounts ⟨n + 1, .call callee paren vs, m⟩ ⟨paren, failure⟩ :=
    accounts_own rfl
  unfold call
  cases callee with
  | function f =>
    exact .after rfl (.checkArity hparen fun harity => (Within.callFunction harity).accounts)
  | builtin b => exact failsAmong_callBuiltin hparen b vs
  | classRef k =>
    refine .after rfl ?_
    cases hmethod : (m.store.classInfo k).methods.find? initializerName with
    | none => exact .checkArity hparen fun _ => .after rfl (failsAmong_pure _)
    | some initializer =>
      refine .checkArity hparen fun harity => .after rfl (.after rfl ?_)
      exact (Within.callInitializer hmethod harity).accounts.bind fun v m₁ _ => failsAmong_pure _
  | _ => exact failsAmong_fail hparen _

theorem apply_accounts (c : Closure) (paren : Token) (vs : List Value) :
    FailsAmong (Accounts ⟨n + 1, .apply c paren vs, m⟩) (apply (n + 1) c paren vs) m := by
  intro e m' hrun
  rw [apply_eq] at hrun
  cases hbody : execAll n c.decl.body (m.enter c.frame (argumentBindings c vs)) with
  | error halt m₁ =>
    rw [hbody] at hrun
    cases hrun
    exact Within.body.accounts e m₁ hbody
  | ok flow m₁ =>
    rw [hbody] at hrun
    refine failsAmong_callResult flow (fun hinit hlost => ?_) e m' hrun
    exact .inr (.inr ⟨hinit, hbody, hlost⟩)

/-- **A failure comes from an evaluation inside, or from the evaluation itself.** -/
theorem accounts {M : Moment} {e : RuntimeError} (h : M.Fails e) : Accounts M e := by
  obtain ⟨n, task, m⟩ := M
  obtain ⟨m', hrun⟩ := h
  cases n with
  | zero => cases task <;> cases hrun
  | succ n =>
    cases task with
    | exec s => exact exec_accounts s e m' hrun
    | execAll ss => exact execAll_accounts ss e m' hrun
    | execLoop test body step => exact execLoop_accounts test body step e m' hrun
    | eval expr => exact eval_accounts expr e m' hrun
    | evalAll es => exact evalAll_accounts es e m' hrun
    | call callee paren vs => exact call_accounts callee paren vs e m' hrun
    | apply c paren vs => exact apply_accounts c paren vs e m' hrun

end Accounts

/-! ### A run -/

/-- Inside of an evaluation that fails there is one that its failure comes from. -/
theorem failure_during {M : Moment} {e : RuntimeError} (h : M.Fails e) :
    ∃ M', During M' M ∧ (M'.task.blames? = some e.token ∨ LosesReceiver M') := by
  -- an evaluation inside of another one has less fuel
  induction hn : M.fuel using Nat.strongRecOn generalizing M with
  | ind n ih =>
    rcases accounts h with ⟨M', hwithin, hfails⟩ | hown
    · obtain ⟨M₀, hduring, hown⟩ := ih M'.fuel (by have := hwithin.fuel; omega) hfails rfl
      exact ⟨M₀, hduring.trans (.step hwithin (.refl M)), hown⟩
    · exact ⟨M, .refl M, hown⟩

/-- **A failure of a program comes from an evaluation that the program has come to.** -/
theorem failure_reached {fuel : Nat} {program : List Stmt} {m m' : Machine} {e : RuntimeError}
    (h : execProgram fuel program m = .error (.failed e) m') :
    ∃ M, Reached fuel program m M ∧ (M.task.blames? = some e.token ∨ LosesReceiver M) := by
  induction program generalizing m with
  | nil => cases h
  | cons s ss ih =>
    unfold execProgram at h
    simp only [Bind.bind, EStateM.bind] at h
    cases hrun : exec fuel s m with
    | ok flow m₁ =>
      rw [hrun] at h
      obtain ⟨M, hM, hown⟩ := ih h
      exact ⟨M, .later hrun hM, hown⟩
    | error halt m₁ =>
      rw [hrun] at h
      cases h
      obtain ⟨M, hM, hown⟩ := failure_during (M := ⟨fuel, .exec s, m⟩) ⟨_, hrun⟩
      exact ⟨M, .here hM, hown⟩

/-! ### The code of a run -/

/-- The tokens in the code of a task that failures are blamed on. -/
def Task.blamed : Task → List Token
  | exec s => s.blamed
  | execAll ss => blamedInStmts ss
  | execLoop test body none => test.blamed ++ body.blamed
  | execLoop test body (some step) => test.blamed ++ (body.blamed ++ step.blamed)
  | eval e => e.blamed
  | evalAll es => blamedInExprs es
  | call _ paren _ => [paren]
  | apply c _ _ => c.decl.blamed

theorem Task.mem_blamed {task : Task} {t : Token} (h : task.blames? = some t) :
    t ∈ task.blamed := by
  unfold blames? at h
  split at h <;> cases h <;> simp [blamed]

/-- What may be blamed in a part of a task may be blamed in the task. -/
theorem Task.blamed_part (task : Task) : ∀ part ∈ task.parts, part.blamed ⊆ task.blamed := by
  unfold parts
  split
  -- what may be missing in a statement is the only thing to tell apart
  case h_3 e? | h_6 e? => cases e? <;> simp [blamed]
  case h_4 no? => cases no? <;> simp +contextual [blamed, List.subset_def, or_imp]
  case h_5 step => cases step <;> simp [blamed]
  case h_8 stmts => cases stmts <;> simp [blamed]
  case h_9 step => cases step <;> simp +contextual [blamed, List.subset_def, or_imp]
  all_goals simp +contextual [blamed, List.subset_def, or_imp]

/-- All that may be blamed in the code at hand has the property. -/
structure CodeBlames (P : Token → Prop) (M : Moment) : Prop where
  task : ∀ t ∈ M.task.blamed, P t
  store : M.machine.store.Codes fun f => ∀ t ∈ f.blamed, P t

section CodeBlames

variable {P : Token → Prop}

theorem CodeBlames.makes {M : Moment} {m : Machine} {role : Role} {c : Closure}
    (h : CodeBlames P M) (hmakes : Makes M m role c) : ∀ t ∈ c.decl.blamed, P t := by
  cases hmakes with
  | lambda | function => exact h.task
  | method hdecl => exact fun t ht => h.task t (blamed_subset_of_mem hdecl ht)

theorem CodeBlames.leads {M' M : Moment} (h : CodeBlames P M)
    (hleads : Leads (fun m m' => (m.store.Codes fun f => ∀ t ∈ f.blamed, P t) →
      m'.store.Codes fun f => ∀ t ∈ f.blamed, P t) M' M) : CodeBlames P M' := by
  have hdefault : ∀ t ∈ (default : Closure).decl.blamed, P t := nofun
  cases hleads with
  | part hpart hR => exact ⟨fun t ht => h.task t (Task.blamed_part _ _ hpart ht), hR h.store⟩
  | others hfirst hR => exact ⟨fun t ht => h.task t (List.mem_append_right _ ht), hR h.store⟩
  | block => exact ⟨h.task, h.store.congr rfl rfl⟩
  | step hR =>
    refine ⟨fun t ht => h.task t ?_, (hR h.store).congr rfl rfl⟩
    rw [Task.blamed, blamedInStmts, blamedInStmts, List.append_nil] at ht
    exact List.mem_append_right _ (List.mem_append_right _ ht)
  | call hR =>
    -- the closing parenthesis goes along with the call
    refine ⟨fun t ht => h.task t ?_, hR h.store⟩
    exact List.mem_append_right _ (List.mem_append_right _ ht)
  | callFunction harity => exact ⟨h.store.closure hdefault _, h.store⟩
  | callInitializer hmethod harity =>
    have hinitializer : ∀ t ∈ (_ : Closure).decl.blamed, P t := h.store.method hmethod
    exact ⟨hinitializer, h.store.congr rfl rfl⟩
  | @body n m c paren vs =>
    refine ⟨fun t ht => h.task t ?_, h.store.congr rfl rfl⟩
    show t ∈ c.decl.blamed
    rw [c.decl.blamed_eq]
    exact ht

/-- **What a run may blame stands in its code**: in the program, or in code that was in the store
before. -/
theorem blames_in_code {program : List Stmt} {m : Machine}
    (hprogram : ∀ t ∈ blamedInStmts program, P t)
    (hstore : m.store.Codes fun f => ∀ t ∈ f.blamed, P t) {fuel : Nat} {M : Moment}
    (hM : Reached fuel program m M) {t : Token} (ht : M.task.blames? = some t) : P t := by
  have hstart : ∀ s ∈ program, ∀ m' : Machine, ((m.store.Codes fun f => ∀ t ∈ f.blamed, P t) →
      m'.store.Codes fun f => ∀ t ∈ f.blamed, P t) → CodeBlames P ⟨fuel, .exec s, m'⟩ :=
    fun s hs m' hm' => ⟨fun t ht => hprogram t (blamed_subset_of_mem_stmts hs ht), hm' hstore⟩
  have hreached := ((kept_codes _).program CodeBlames.makes (fun h _ => h.leads) hstart).2
  exact (hreached M hM).task t (Task.mem_blamed ht)

end CodeBlames

end Machine

end Roteiro
