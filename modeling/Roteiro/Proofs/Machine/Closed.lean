import Roteiro.Proofs.Machine.References

/-!
# Values lead into the store

A program gets hold of references only by making something, or by reading what the store has. So
every value that it comes to leads to something that is there: what an evaluation gives, what is
called, the arguments, and whatever is kept in the store meanwhile.

* `allSafe`: an evaluation leaves the store closed, and gives values that lead into it.
* `closed_run`: this holds at every moment of a run.
-/

namespace Roteiro

/-- All of the values lead into the store. -/
def Value.AllIn (s : Store) (vs : List Value) : Prop := ∀ v ∈ vs, v.In s

theorem Value.AllIn.persists {s s' : Store} {vs : List Value} (h : Value.AllIn s vs)
    (hs : s.Persists s') : Value.AllIn s' vs := fun v hv => (h v hv).persists hs

/-- What a statement has returned leads into the store. -/
def Flow.In (s : Store) : Flow → Prop
  | .result v => v.In s
  | _ => True

namespace Machine

/-! ### Safe steps -/

section Safe

variable {ε α β γ : Type} {A : Store → α → Prop} {B : Store → β → Prop} {m m₁ : Machine}
  {step : EStateM ε Machine α}

/-- Nothing was taken away from the store `s`, the store is closed, and the result is as in `A`. -/
def Ends (A : Store → α → Prop) (s : Store) : EStateM.Result ε Machine α → Prop
  | .ok a m => s.Persists m.store ∧ m.store.Closed ∧ A m.store a
  | .error _ m => s.Persists m.store ∧ m.store.Closed

/-- A step that leaves the store closed, with a result as in `A`. -/
def Safe (A : Store → α → Prop) (step : EStateM ε Machine α) (m : Machine) : Prop :=
  Ends A m.store (step m)

/-- What has happened to the store before does not matter. -/
theorem Ends.behind {s s' : Store} {result : EStateM.Result ε Machine α} (h : Ends A s' result)
    (hs : s.Persists s') : Ends A s result := by
  cases result with
  | ok a m => exact ⟨hs.trans h.1, h.2⟩
  | error e m => exact ⟨hs.trans h.1, h.2⟩

theorem Safe.ok (h : Safe A step m) {a : α} (hrun : step m = .ok a m₁) :
    m.store.Persists m₁.store ∧ m₁.store.Closed ∧ A m₁.store a := by
  rw [Safe, hrun] at h
  exact h

theorem Safe.final (h : Safe A step m) : (final step m).store.Closed := by
  unfold Safe at h
  unfold Machine.final
  cases hrun : step m with
  | ok a m₁ =>
    rw [hrun] at h
    exact h.2.1
  | error e m₁ =>
    rw [hrun] at h
    exact h.2

theorem Safe.pure {a : α} (hm : m.store.Closed) (ha : A m.store a) :
    Safe A (pure a : EStateM ε Machine α) m := ⟨.refl m.store, hm, ha⟩

theorem Safe.throw {e : ε} (hm : m.store.Closed) : Safe A (throw e : EStateM ε Machine α) m :=
  ⟨.refl m.store, hm⟩

theorem Safe.bind {next : α → EStateM ε Machine β} (h : Safe A step m)
    (hnext : ∀ a m₁, m.store.Persists m₁.store → m₁.store.Closed → A m₁.store a →
      Safe B (next a) m₁) : Safe B (step >>= next) m := by
  unfold Safe at h ⊢
  simp only [Bind.bind, EStateM.bind]
  cases hrun : step m with
  | ok a m₁ =>
    rw [hrun] at h
    exact (hnext a m₁ h.1 h.2.1 h.2.2).behind h.1
  | error e m₁ =>
    rw [hrun] at h
    exact h

/-- What is read from the store changes nothing. -/
theorem Safe.read {read : Store → γ} {next : γ → Run β} (h : Safe B (next (read m.store)) m) :
    Safe B (withStore read >>= next) m := h

theorem Safe.orFail {token : Token} {result : Except Failure α} (hm : m.store.Closed)
    (h : ∀ a, result = .ok a → A m.store a) : Safe A (orFail token result) m := by
  cases result with
  | ok a => exact .pure hm (h a rfl)
  | error failure => exact .throw hm

/-- The result after a change of the present frame. -/
theorem Ends.moved {s : Store} {step : Run α} (h : Ends A s (step m)) (r : Ref .frames) :
    Ends A s (match step m with
      | .ok a m' => .ok a { m' with current := r }
      | .error e m' => .error e { m' with current := r } : EStateM.Result Halt Machine α) := by
  cases hrun : step m with
  | ok a m' =>
    rw [hrun] at h
    exact h
  | error e m' =>
    rw [hrun] at h
    exact h

theorem Safe.inNewFrame {step : Run α} (h : Safe A step (m.enter m.current [])) :
    Safe A (inNewFrame step) m := by
  rw [Safe, inNewFrame_eq]
  exact (Ends.moved h m.current).behind (.of_frames m.store _)

theorem closed_enter (hm : m.store.Closed) (around : Ref .frames) {bindings : Bindings Value}
    (hbindings : ∀ p ∈ bindings, p.2.In m.store) : (m.enter around bindings).store.Closed :=
  hm.addFrame around hbindings

theorem closed_inside (hm : m.store.Closed) : (m.enter m.current []).store.Closed :=
  closed_enter hm m.current fun _ hp => absurd hp List.not_mem_nil

theorem safe_define (hm : m.store.Closed) (name : String) {v : Value} (hv : v.In m.store) :
    Safe (fun _ _ => True) (define name v) m :=
  ⟨.of_frames m.store _, hm.define _ _ hv, trivial⟩

theorem safe_makeFunction (hm : m.store.Closed) (decl : FunctionDecl) :
    Safe Value.In (makeFunction decl) m := by
  refine ⟨.addFunction m.store _, hm.addFunction _, ?_⟩
  simp [Value.In]

theorem safe_makeClass (hm : m.store.Closed) (name : Token) (methods : List FunctionDecl) :
    Safe Value.In (makeClass name methods) m := by
  refine ⟨.addClass m.store _, hm.addClass _, ?_⟩
  simp [Value.In]

theorem safe_addInstance (hm : m.store.Closed) {k : Ref .classes}
    (hk : (Value.classRef k).In m.store) :
    Safe (fun s r => (Value.instanceRef r).In s)
      (allocate fun s => s.addInstance k : Run (Ref .instances)) m := by
  refine ⟨.addInstance m.store k, hm.addInstance hk, ?_⟩
  simp [Value.In]

theorem safe_bindMethod (hm : m.store.Closed) (method : Closure) {receiver : Ref .instances}
    (hreceiver : (Value.instanceRef receiver).In m.store) :
    Safe (fun _ _ => True) (bindMethod method receiver) m := by
  refine ⟨.of_frames m.store _, hm.addFrame _ fun p hp => ?_, trivial⟩
  cases List.mem_singleton.mp hp
  exact hreceiver

theorem safe_property (hm : m.store.Closed) {receiver : Ref .instances}
    (hreceiver : (Value.instanceRef receiver).In m.store) (name : Token) :
    Safe Value.In (property receiver name) m := by
  unfold property
  refine .read ?_
  cases hfield : (m.store.instanceAt receiver).fields.find? name.lexeme with
  | some v => exact .pure hm (hm.field hfield)
  | none =>
    refine .read ?_
    cases (m.store.classInfo
      (m.store.instanceAt receiver).classRef).methods.find? name.lexeme with
    | some method =>
      refine (safe_bindMethod hm method hreceiver).bind fun c m₁ _ hm₁ _ => ?_
      exact ⟨.addFunction m₁.store c, hm₁.addFunction c, by simp [Value.In]⟩
    | none => exact .throw hm

theorem safe_readName (hm : m.store.Closed) (id : Nat) (name : Token) :
    Safe Value.In (readName id name) m := by
  unfold Safe readName
  dsimp only
  split
  · next v hfound =>
    refine ⟨.refl m.store, hm, ?_⟩
    split at hfound
    · exact hm.binding hfound
    · exact hm.lookup hfound
  · exact ⟨.refl m.store, hm⟩

theorem safe_assignName (hm : m.store.Closed) (id : Nat) (name : Token) {v : Value}
    (hv : v.In m.store) : Safe (fun _ _ => True) (assignName id name v) m := by
  unfold Safe assignName
  split
  · exact ⟨.of_frames m.store _, hm.define _ _ hv, trivial⟩
  · exact ⟨.refl m.store, hm⟩

/-- An array that is indexed is a value that was there already. -/
theorem safe_arrayAt (hm : m.store.Closed) (bracket : Token) {v : Value} (hv : v.In m.store) :
    Safe (fun s a => a.index < s.arrays.size) (arrayAt bracket v) m := by
  cases v with
  | array a => exact .pure hm hv
  | _ => exact .throw hm

theorem safe_keyAt (hm : m.store.Closed) (bracket : Token) (v : Value) :
    Safe (fun _ _ => True) (keyAt bracket v) m := by
  unfold keyAt
  split
  · exact .pure hm trivial
  · exact .throw hm

theorem Safe.checkArity {paren : Token} {expected got : Nat} {next : Unit → Run β}
    (hm : m.store.Closed) (h : Safe B (next ()) m) :
    Safe B (checkArity paren expected got >>= next) m := by
  unfold Machine.checkArity
  split
  · exact h
  · exact .throw hm

theorem safe_putEntry (hm : m.store.Closed) (a : Ref .arrays) (key : String) {v : Value}
    (hv : v.In m.store) : Safe (fun _ _ => True) (Builtin.putEntry a key v) m :=
  ⟨.putEntry m.store a key v, hm.putEntry a key hv, trivial⟩

theorem safe_newArray (hm : m.store.Closed) {values : List Value}
    (hvalues : Value.AllIn m.store values) :
    Safe Value.In (Builtin.newArray (.ofList values)) m := by
  refine ⟨.addArray m.store _, hm.addArray hvalues, ?_⟩
  simp [Value.In]

theorem safe_filled (hm : m.store.Closed) (n : Nat) {v : Value} (hv : v.In m.store) :
    Safe Value.In (Builtin.filled n v) m :=
  safe_newArray hm fun _ hw => (List.eq_of_mem_replicate hw) ▸ hv

theorem safe_nextLine (hm : m.store.Closed) : Safe Value.In Builtin.nextLine m := by
  unfold Safe Builtin.nextLine
  dsimp only
  split
  · exact ⟨.refl m.store, hm, trivial⟩
  · split
    · exact ⟨.refl m.store, hm, trivial⟩
    · exact ⟨.refl m.store, hm⟩

/-- What comes behind a check of the arguments, of which nothing needs to be known. -/
theorem Safe.checked {result : Except Failure α} {next : α → EStateM Failure Machine β}
    (hm : m.store.Closed) (hnext : ∀ a, Safe B (next a) m) :
    Safe B (Builtin.check result >>= next) m := by
  cases result with
  | ok a => exact hnext a
  | error failure => exact .throw hm

theorem Safe.store {next : Store → EStateM Failure Machine β} (h : Safe B (next m.store) m) :
    Safe B (Builtin.store >>= next) m := h

/-- A builtin function gives what it was given, or something that refers to nothing or to an array
that it has made. -/
theorem safe_builtin (hm : m.store.Closed) (b : Builtin) {vs : List Value}
    (hvs : Value.AllIn m.store vs) : Safe Value.In (b.call vs) m := by
  unfold Builtin.call
  split
  · exact ⟨.refl m.store, hm, trivial⟩
  · exact .checked hm fun x => .checked hm fun y => .pure hm trivial
  · exact safe_nextLine hm
  · exact .store (.checked hm fun n => .pure hm trivial)
  · next target v =>
    obtain ⟨htarget, hv⟩ : target.In m.store ∧ v.In m.store := by simpa [Value.AllIn] using hvs
    refine .checked hm fun a => .store ((safe_putEntry hm a _ hv).bind fun _ m₁ hs hm₁ _ => ?_)
    exact .pure hm₁ (htarget.persists hs)
  · next target place v =>
    obtain ⟨htarget, -, hv⟩ : target.In m.store ∧ place.In m.store ∧ v.In m.store := by
      simpa [Value.AllIn] using hvs
    refine .checked hm fun a => .checked hm fun k => ?_
    refine (safe_putEntry hm a k hv).bind fun _ m₁ hs hm₁ _ => ?_
    exact .pure hm₁ (htarget.persists hs)
  · exact .checked hm fun a => .checked hm fun k => .store (.pure hm trivial)
  · refine .checked hm fun x => .checked hm fun y => ?_
    split
    · exact .throw hm
    · exact ⟨.refl m.store, hm, trivial⟩
  · next length v =>
    have hv : v.In m.store := hvs v (by simp)
    exact .store (.checked hm fun n => safe_filled hm n hv)
  · exact .store (.checked hm fun n => safe_filled hm n trivial)
  · next length v =>
    have hv : v.In m.store := hvs v (by simp)
    exact .store (.checked hm fun n => safe_filled hm n hv)
  · exact .throw hm

theorem safe_callBuiltin (hm : m.store.Closed) (b : Builtin) (paren : Token) {vs : List Value}
    (hvs : Value.AllIn m.store vs) : Safe Value.In (callBuiltin b paren vs) m := by
  have hcall := safe_builtin hm b hvs
  unfold Safe callBuiltin at *
  cases hrun : b.call vs m with
  | ok v m₁ =>
    rw [hrun] at hcall
    exact hcall
  | error failure m₁ =>
    rw [hrun] at hcall
    exact hcall

/-- A call gives what was returned, or the receiver in the frame of an initializer. -/
theorem safe_callResult (hm : m.store.Closed) (c : Closure) (paren : Token) {flow : Flow}
    (hflow : flow.In m.store) : Safe Value.In (callResult c paren flow) m := by
  unfold callResult
  split
  · refine .read ?_
    cases hself : m.store.lookupAt? c.frame 0 selfName with
    | some receiver => exact .pure hm (hm.binding hself)
    | none => exact .throw hm
  · split
    · exact .pure hm hflow
    · exact .pure hm trivial

end Safe

/-! ### Safe evaluations -/

theorem mem_argumentBindings {c : Closure} {vs : List Value} {p : String × Value}
    (h : p ∈ argumentBindings c vs) : p.2 ∈ vs := by
  have hfold : ∀ (pairs : List (Token × Value)) (b : Bindings Value),
      p ∈ pairs.foldl (fun (b : Bindings Value) (q : Token × Value) => b.insert q.1.lexeme q.2) b →
      p ∈ b ∨ ∃ q ∈ pairs, q.2 = p.2 := by
    intro pairs
    induction pairs with
    | nil => exact fun b h => .inl h
    | cons q pairs ih =>
      intro b h
      rcases ih _ h with h | ⟨q', hq', heq⟩
      · rcases mem_insert h with rfl | h
        · exact .inr ⟨q, List.mem_cons_self, rfl⟩
        · exact .inl h
      · exact .inr ⟨q', List.mem_cons_of_mem q hq', heq⟩
  rcases hfold _ _ h with h | ⟨q, hq, heq⟩
  · cases h
  · rw [← heq]
    exact (List.of_mem_zip hq).2

/-- The result of an operator refers to nothing. -/
theorem in_of_unary {operator : Token} {v w : Value} (h : Operator.unary operator v = .ok w)
    (s : Store) : w.In s := by
  unfold Operator.unary at h
  split at h <;> cases h <;> trivial

theorem in_of_binary {s' : Store} {operator : Token} {l r w : Value}
    (h : Operator.binary s' operator l r = .ok w) (s : Store) : w.In s := by
  have hnumeric : ∀ {x y}, Operator.numeric operator x y = .ok w → w.In s := by
    intro x y h
    unfold Operator.numeric Operator.divisor at h
    split at h <;> try split at h
    all_goals cases h <;> trivial
  unfold Operator.binary at h
  split at h
  · cases h
    trivial
  · cases h
    trivial
  · unfold Operator.plus at h
    split at h <;> cases h <;> trivial
  · split at h
    · exact hnumeric h
    · cases h

/-- With so much fuel, every evaluation leaves the store closed and gives values that lead into it,
if the values that it is started with do. -/
structure AllSafe (n : Nat) : Prop where
  exec : ∀ (s : Stmt) {m : Machine}, m.store.Closed → Safe Flow.In (exec n s) m
  execAll : ∀ (ss : List Stmt) {m : Machine}, m.store.Closed → Safe Flow.In (execAll n ss) m
  execLoop : ∀ (test : Expr) (body : Stmt) (step : Option Stmt) {m : Machine}, m.store.Closed →
    Safe Flow.In (execLoop n test body step) m
  eval : ∀ (e : Expr) {m : Machine}, m.store.Closed → Safe Value.In (eval n e) m
  evalAll : ∀ (es : List Expr) {m : Machine}, m.store.Closed → Safe Value.AllIn (evalAll n es) m
  call : ∀ (callee : Value) (paren : Token) {vs : List Value} {m : Machine}, m.store.Closed →
    callee.In m.store → Value.AllIn m.store vs → Safe Value.In (call n callee paren vs) m
  apply : ∀ (c : Closure) (paren : Token) {vs : List Value} {m : Machine}, m.store.Closed →
    Value.AllIn m.store vs → Safe Value.In (apply n c paren vs) m

section Step

variable {n : Nat} {m : Machine}

theorem AllSafe.exec_succ (ih : AllSafe n) (s : Stmt) (hm : m.store.Closed) :
    Safe Flow.In (Machine.exec (n + 1) s) m := by
  unfold Machine.exec
  cases s with
  | expression e => exact (ih.eval e hm).bind fun v m₁ _ hm₁ _ => .pure hm₁ trivial
  | print e =>
    refine (ih.eval e hm).bind fun v m₁ _ hm₁ _ => ?_
    exact ⟨.refl m₁.store, hm₁, trivial⟩
  | var name e? =>
    cases e? with
    | none =>
      exact (safe_define hm _ (v := .nil) trivial).bind fun _ m₁ _ hm₁ _ => .pure hm₁ trivial
    | some e =>
      refine (ih.eval e hm).bind fun v m₁ _ hm₁ hv => ?_
      exact (safe_define hm₁ _ hv).bind fun _ m₂ _ hm₂ _ => .pure hm₂ trivial
  | block body => exact (ih.execAll body (closed_inside hm)).inNewFrame
  | ifElse test yes no? =>
    refine (ih.eval test hm).bind fun v m₁ _ hm₁ _ => ?_
    split
    · exact ih.exec yes hm₁
    · cases no? with
      | none => exact .pure hm₁ trivial
      | some no => exact ih.exec no hm₁
  | loop test body step => exact ih.execLoop test body step hm
  | exitLoop _ => exact .pure hm trivial
  | nextIteration _ => exact .pure hm trivial
  | function decl =>
    refine (safe_makeFunction hm decl).bind fun f m₁ _ hm₁ hf => ?_
    exact (safe_define hm₁ _ hf).bind fun _ m₂ _ hm₂ _ => .pure hm₂ trivial
  | result _ e? =>
    cases e? with
    | none => exact .pure hm trivial
    | some e => exact (ih.eval e hm).bind fun v m₁ _ hm₁ hv => .pure hm₁ hv
  | classDecl name methods =>
    refine (safe_makeClass hm name methods).bind fun k m₁ _ hm₁ hk => ?_
    exact (safe_define hm₁ _ hk).bind fun _ m₂ _ hm₂ _ => .pure hm₂ trivial

theorem AllSafe.execAll_succ (ih : AllSafe n) (ss : List Stmt) (hm : m.store.Closed) :
    Safe Flow.In (Machine.execAll (n + 1) ss) m := by
  unfold Machine.execAll
  cases ss with
  | nil => exact .pure hm trivial
  | cons s ss =>
    refine (ih.exec s hm).bind fun flow m₁ _ hm₁ hflow => ?_
    cases flow with
    | normal => exact ih.execAll ss hm₁
    | exitLoop | nextIteration | result => exact .pure hm₁ hflow

theorem AllSafe.execLoop_succ (ih : AllSafe n) (test : Expr) (body : Stmt) (step : Option Stmt)
    (hm : m.store.Closed) : Safe Flow.In (Machine.execLoop (n + 1) test body step) m := by
  have hagain : ∀ {m : Machine}, m.store.Closed →
      Safe Flow.In (Machine.execLoop n test body step) m := ih.execLoop test body step
  unfold Machine.execLoop
  refine (ih.eval test hm).bind fun v m₁ _ hm₁ _ => ?_
  split
  · refine (ih.exec body hm₁).bind fun flow m₂ _ hm₂ hflow => ?_
    cases flow with
    | normal => exact hagain hm₂
    | exitLoop => exact .pure hm₂ trivial
    | nextIteration =>
      cases step with
      | none => exact hagain hm₂
      | some s =>
        have hstep := (ih.execAll [s] (closed_inside hm₂)).inNewFrame
        exact hstep.bind fun _ m₃ _ hm₃ _ => hagain hm₃
    | result v => exact .pure hm₂ hflow
  · exact .pure hm₁ trivial

theorem AllSafe.eval_succ (ih : AllSafe n) (e : Expr) (hm : m.store.Closed) :
    Safe Value.In (Machine.eval (n + 1) e) m := by
  unfold Machine.eval
  cases e with
  | literal l => exact .pure hm (Value.in_literal m.store l)
  | group inner => exact ih.eval inner hm
  | unary operator operand =>
    refine (ih.eval operand hm).bind fun v m₁ _ hm₁ _ => ?_
    exact .orFail hm₁ fun w hw => in_of_unary hw m₁.store
  | binary left operator right =>
    refine (ih.eval left hm).bind fun l m₁ _ hm₁ _ => ?_
    refine (ih.eval right hm₁).bind fun r m₂ _ hm₂ _ => ?_
    refine .read ?_
    exact .orFail hm₂ fun w hw => in_of_binary hw m₂.store
  | logical left operator right =>
    refine (ih.eval left hm).bind fun l m₁ _ hm₁ hl => ?_
    dsimp only
    split
    · split
      · exact .pure hm₁ hl
      · exact ih.eval right hm₁
    · split
      · exact .pure hm₁ hl
      · exact ih.eval right hm₁
  | conditional test yes no =>
    refine (ih.eval test hm).bind fun v m₁ _ hm₁ _ => ?_
    split
    · exact ih.eval yes hm₁
    · exact ih.eval no hm₁
  | var id name => exact safe_readName hm id name
  | self id keyword => exact safe_readName hm id keyword
  | assign id name e =>
    refine (ih.eval e hm).bind fun v m₁ _ hm₁ hv => ?_
    exact (safe_assignName hm₁ id name hv).bind fun _ m₂ hs hm₂ _ => .pure hm₂ (hv.persists hs)
  | call callee paren arguments =>
    refine (ih.eval callee hm).bind fun f m₁ _ hm₁ hf => ?_
    refine (ih.evalAll arguments hm₁).bind fun vs m₂ hs hm₂ hvs => ?_
    exact ih.call f paren hm₂ (hf.persists hs) hvs
  | lambda decl => exact safe_makeFunction hm decl
  | array _ elements =>
    refine (ih.evalAll elements hm).bind fun vs m₁ _ hm₁ hvs => ?_
    refine ⟨.addArray m₁.store _, hm₁.addArray hvs, ?_⟩
    simp [Value.In]
  | index bracket base key =>
    refine (ih.eval base hm).bind fun b m₁ _ hm₁ hb => ?_
    refine (ih.eval key hm₁).bind fun k m₂ hs hm₂ _ => ?_
    refine (safe_arrayAt hm₂ bracket (hb.persists hs)).bind fun a m₃ _ hm₃ _ => ?_
    refine (safe_keyAt hm₃ bracket k).bind fun k m₄ _ hm₄ _ => ?_
    refine .read ?_
    cases hv : (m₄.store.table a).get? k with
    | some v => exact .pure hm₄ (hm₄.entry hv)
    | none => exact .throw hm₄
  | indexSet bracket base key e =>
    refine (ih.eval base hm).bind fun b m₁ _ hm₁ hb => ?_
    refine (ih.eval key hm₁).bind fun k m₂ hs hm₂ _ => ?_
    refine (ih.eval e hm₂).bind fun v m₃ hs' hm₃ hv => ?_
    refine (safe_arrayAt hm₃ bracket ((hb.persists hs).persists hs')).bind fun a m₄ hs hm₄ _ => ?_
    refine (safe_keyAt hm₄ bracket k).bind fun k m₅ hs' hm₅ _ => ?_
    have hv := (hv.persists hs).persists hs'
    have hput := Store.Persists.putEntry m₅.store a k v
    exact ⟨hput, hm₅.putEntry a k hv, hv.persists hput⟩
  | get object name =>
    refine (ih.eval object hm).bind fun v m₁ _ hm₁ hv => ?_
    cases v with
    | instanceRef r => exact safe_property hm₁ hv name
    | _ => exact .throw hm₁
  | set object name e =>
    refine (ih.eval object hm).bind fun v m₁ _ hm₁ hv => ?_
    cases v with
    | instanceRef r =>
      refine (ih.eval e hm₁).bind fun v m₂ _ hm₂ hv => ?_
      have hset := Store.Persists.setField m₂.store r name.lexeme v
      exact ⟨hset, hm₂.setField r name.lexeme hv, hv.persists hset⟩
    | _ => exact .throw hm₁

theorem AllSafe.evalAll_succ (ih : AllSafe n) (es : List Expr) (hm : m.store.Closed) :
    Safe Value.AllIn (Machine.evalAll (n + 1) es) m := by
  unfold Machine.evalAll
  cases es with
  | nil => exact .pure hm fun v hv => absurd hv List.not_mem_nil
  | cons e es =>
    refine (ih.eval e hm).bind fun v m₁ _ hm₁ hv => ?_
    refine (ih.evalAll es hm₁).bind fun vs m₂ hs hm₂ hvs => ?_
    exact .pure hm₂ (List.forall_mem_cons.mpr ⟨hv.persists hs, hvs⟩)

theorem AllSafe.call_succ (ih : AllSafe n) (callee : Value) (paren : Token) {vs : List Value}
    (hm : m.store.Closed) (hcallee : callee.In m.store) (hvs : Value.AllIn m.store vs) :
    Safe Value.In (Machine.call (n + 1) callee paren vs) m := by
  unfold Machine.call
  cases callee with
  | function f => exact .checkArity hm (ih.apply (m.store.closure f) paren hm hvs)
  | builtin b => exact safe_callBuiltin hm b paren hvs
  | classRef k =>
    refine .checkArity hm ?_
    refine (safe_addInstance hm hcallee).bind fun receiver m₁ hs hm₁ hreceiver => ?_
    dsimp only
    split
    · next initializer _ =>
      refine (safe_bindMethod hm₁ initializer hreceiver).bind fun bound m₂ hs' hm₂ _ => ?_
      have hvs := (hvs.persists hs).persists hs'
      refine (ih.apply bound paren hm₂ hvs).bind fun _ m₃ hs'' hm₃ _ => ?_
      exact .pure hm₃ ((hreceiver.persists hs').persists hs'')
    · exact .pure hm₁ hreceiver
  | _ => exact .throw hm

theorem AllSafe.apply_succ (ih : AllSafe n) (c : Closure) (paren : Token) {vs : List Value}
    (hm : m.store.Closed) (hvs : Value.AllIn m.store vs) :
    Safe Value.In (Machine.apply (n + 1) c paren vs) m := by
  have hentry : (m.enter c.frame (argumentBindings c vs)).store.Closed :=
    closed_enter hm c.frame fun p hp => hvs p.2 (mem_argumentBindings hp)
  have hbody := ih.execAll c.decl.body hentry
  rw [Safe, apply_eq]
  unfold Safe at hbody
  have hentered : m.store.Persists (m.enter c.frame (argumentBindings c vs)).store :=
    .of_frames m.store _
  cases hrun : Machine.execAll n c.decl.body (m.enter c.frame (argumentBindings c vs)) with
  | ok flow m₁ =>
    rw [hrun] at hbody
    obtain ⟨hs, hm₁, hflow⟩ := hbody
    have hresult := safe_callResult (m := { m₁ with current := m.current }) hm₁ c paren hflow
    exact Ends.behind hresult (hentered.trans hs)
  | error e m₁ =>
    rw [hrun] at hbody
    exact ⟨hentered.trans hbody.1, hbody.2⟩

end Step

theorem allSafe (n : Nat) : AllSafe n := by
  induction n with
  | zero =>
    exact ⟨fun _ _ hm => .throw hm, fun _ _ hm => .throw hm, fun _ _ _ _ hm => .throw hm,
      fun _ _ hm => .throw hm, fun _ _ hm => .throw hm, fun _ _ _ _ hm _ _ => .throw hm,
      fun _ _ _ _ hm _ => .throw hm⟩
  | succ n ih =>
    exact ⟨fun s _ => ih.exec_succ s, fun ss _ => ih.execAll_succ ss,
      fun test body step _ => ih.execLoop_succ test body step, fun e _ => ih.eval_succ e,
      fun es _ => ih.evalAll_succ es, fun callee paren _ _ => ih.call_succ callee paren,
      fun c paren _ _ => ih.apply_succ c paren⟩

/-! ### The moments of a run -/

/-- The values that a task is started with lead into the store. -/
def Task.In (s : Store) : Task → Prop
  | call callee _ vs => callee.In s ∧ Value.AllIn s vs
  | apply _ _ vs => Value.AllIn s vs
  | _ => True

/-- The store is closed, and the evaluation is started with values that lead into it. -/
structure ClosedAt (M : Moment) : Prop where
  store : M.machine.store.Closed
  task : M.task.In M.machine.store

section Within

variable {n : Nat} {m m' : Machine}

theorem closed_of_eval {e : Expr} {v : Value} (hm : m.store.Closed) (h : eval n e m = .ok v m') :
    m'.store.Closed := (((allSafe n).eval e hm).ok h).2.1

theorem closed_of_exec {s : Stmt} {flow : Flow} (hm : m.store.Closed)
    (h : exec n s m = .ok flow m') : m'.store.Closed := (((allSafe n).exec s hm).ok h).2.1

/-- What an evaluation starts is started in a closed store as well, with values that lead into
it. -/
theorem ClosedAt.within {M' M : Moment} (h : ClosedAt M) (hwithin : Within M' M) :
    ClosedAt M' := by
  obtain ⟨hm, htask⟩ := h
  cases hwithin with
  | expression | print | declared | choice | loop | result | first | loopTest | group | unary
  | binaryLeft | logicalLeft | conditionalTest | assign | callee | elements | indexBase
  | indexSetBase | getObject | setObject | element => exact ⟨hm, trivial⟩
  | chosenYes hrun | chosenNo hrun | loopBody hrun | binaryRight hrun | logicalRight hrun
  | conditionalYes hrun | conditionalNo hrun | arguments hrun | indexKey hrun | indexSetKey hrun
  | setValue hrun | otherElements hrun => exact ⟨closed_of_eval hm hrun, trivial⟩
  | others hfirst => exact ⟨closed_of_exec hm hfirst, trivial⟩
  | block => exact ⟨closed_inside hm, trivial⟩
  | loopAgain htest _ hbody | loopCutShort htest _ hbody =>
    exact ⟨closed_of_exec (closed_of_eval hm htest) hbody, trivial⟩
  | loopStep htest _ hbody =>
    exact ⟨closed_inside (closed_of_exec (closed_of_eval hm htest) hbody), trivial⟩
  | @loopStepped n m _ _ s _ _ _ _ _ htest _ hbody hstep =>
    have hm₂ := closed_of_exec (closed_of_eval hm htest) hbody
    exact ⟨(((allSafe n).execAll [s] (closed_inside hm₂)).ok hstep).2.1, trivial⟩
  | indexSetValue hbase hkey =>
    exact ⟨closed_of_eval (closed_of_eval hm hbase) hkey, trivial⟩
  | @call n m callee paren arguments f m₁ vs m₂ hcallee harguments =>
    obtain ⟨-, hm₁, hf⟩ := ((allSafe n).eval callee hm).ok hcallee
    obtain ⟨hs, hm₂, hvs⟩ := ((allSafe n).evalAll arguments hm₁).ok harguments
    exact ⟨hm₂, hf.persists hs, hvs⟩
  | callFunction => exact ⟨hm, htask.2⟩
  | @callInitializer n m k paren vs initializer =>
    obtain ⟨hs, hm₁, hreceiver⟩ := safe_addInstance hm htask.1
    obtain ⟨hs', hm₂, -⟩ := safe_bindMethod (m := m.withInstance k) hm₁ initializer hreceiver
    exact ⟨hm₂, (htask.2.persists hs).persists hs'⟩
  | @body n m c paren vs =>
    exact ⟨closed_enter hm c.frame fun p hp => htask p.2 (mem_argumentBindings hp), trivial⟩

theorem ClosedAt.during {M' M : Moment} (h : ClosedAt M) (hduring : During M' M) : ClosedAt M' := by
  induction hduring with
  | refl => exact h
  | step hwithin _ ih => exact (ih h).within hwithin

end Within

/-- **A closed store stays closed**, to the end of a run and at the start of every evaluation in
it. -/
theorem closed_run {m : Machine} (h : m.store.Closed) (fuel : Nat) (program : List Stmt) :
    (final (execProgram fuel program) m).store.Closed ∧
      ∀ M, Reached fuel program m M → ClosedAt M := by
  induction program generalizing m with
  | nil =>
    refine ⟨h, fun M hM => ?_⟩
    cases hM
  | cons s ss ih =>
    have hfirst : ClosedAt ⟨fuel, .exec s, m⟩ := ⟨h, trivial⟩
    constructor
    · have hsafe := (allSafe fuel).exec s h
      unfold execProgram
      cases hrun : exec fuel s m with
      | ok flow m₁ =>
        rw [final_bind_of_ok hrun]
        exact (ih (hsafe.ok hrun).2.1).1
      | error e m₁ =>
        have hend := hsafe.final
        simpa only [final, Bind.bind, EStateM.bind, hrun] using hend
    · intro M hM
      cases hM with
      | here hduring => exact hfirst.during hduring
      | later hrun hreached => exact (ih (closed_of_exec h hrun)).2 M hreached

end Machine

end Roteiro
