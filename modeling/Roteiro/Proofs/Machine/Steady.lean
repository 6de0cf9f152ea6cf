import Roteiro.Proofs.Machine.Kept

/-!
# What lasts

A relation between machines is *steady* if every action keeps it and if it does not matter which
frame is the present one. Such a relation holds between any two machines that a run comes to one
after the other: what is true of the store at some moment is still true at the end of the run, as
far as the relation goes.

* `Steady.after`: from the start of an evaluation to the start of one inside of it.
* `Steady.before`: from the end of an evaluation to the end of the one around it.
* `Steady.reached`: from the start of a program to any moment of its run, and from there to its end.
-/

namespace Roteiro

namespace Machine

/-- A relation that every action keeps, whatever is known of it and whichever frame it takes place
in. -/
structure Steady (R : Machine → Machine → Prop) : Prop extends
    Kept R (fun _ _ _ => True) (fun _ => True) (fun _ _ _ => True) where
  moved : ∀ m r, R m { m with current := r }

variable {R : Machine → Machine → Prop}

/-- Two steady relations together. -/
theorem Steady.and {R' : Machine → Machine → Prop} (h : Steady R) (h' : Steady R') :
    Steady fun m m' => R m m' ∧ R' m m' where
  refl m := ⟨h.refl m, h'.refl m⟩
  trans h₁ h₂ := ⟨h.trans h₁.1 h₂.1, h'.trans h₁.2 h₂.2⟩
  host m x := ⟨h.host m x, h'.host m x⟩
  define m r name v hname := ⟨h.define m r name v hname, h'.define m r name v hname⟩
  putEntry m a key v := ⟨h.putEntry m a key v, h'.putEntry m a key v⟩
  setField m i name v := ⟨h.setField m i name v, h'.setField m i name v⟩
  addArray m values := ⟨h.addArray m values, h'.addArray m values⟩
  addInstance m k := ⟨h.addInstance m k, h'.addInstance m k⟩
  addFrame m around bindings := ⟨h.addFrame m around bindings, h'.addFrame m around bindings⟩
  lambda m c hc := ⟨h.lambda m c hc, h'.lambda m c hc⟩
  function m decl hname hc := ⟨h.function m decl hname hc, h'.function m decl hname hc⟩
  classDecl m name methods hname hcs :=
    ⟨h.classDecl m name methods hname hcs, h'.classDecl m name methods hname hcs⟩
  bound m k name method receiver hmethod hreceiver :=
    ⟨h.bound m k name method receiver hmethod hreceiver,
      h'.bound m k name method receiver hmethod hreceiver⟩
  inside m around bindings m' hin :=
    ⟨h.inside m around bindings m' hin.1, h'.inside m around bindings m' hin.2⟩
  moved m r := ⟨h.moved m r, h'.moved m r⟩

/-- Every evaluation keeps the relation. -/
theorem Steady.ran (hR : Steady R) (n : Nat) (task : Task) (m : Machine) :
    R m (final (task.run n) m) :=
  hR.run ⟨n, task, m⟩

theorem Steady.enter (hR : Steady R) (m : Machine) (around : Ref .frames)
    (bindings : Bindings Value) : R m (m.enter around bindings) :=
  hR.trans (hR.addFrame m around bindings) (hR.moved _ _)

theorem Steady.boundInitializer (hR : Steady R) (m : Machine) (k : Ref .classes)
    (initializer : Closure) : R m (m.boundInitializer k initializer).2 :=
  hR.trans (hR.addInstance m k) (hR.addFrame (m.withInstance k) initializer.frame _)

/-- Up to the start of an evaluation from the start of the one around it. -/
theorem Steady.after (hR : Steady R) {X M : Moment} (h : Within X M) :
    R M.machine X.machine := by
  obtain ⟨k, task, m⟩ := M
  cases h.fuel
  have hnothing : ∀ M, Within M ⟨X.fuel + 1, task, m⟩ →
      Leads R M ⟨X.fuel + 1, task, m⟩ → (fun _ : Moment => True) M :=
    fun _ _ _ => trivial
  cases hR.leads hnothing (fun task m _ => hR.ran _ task m) h with
  | part _ hm | others _ hm | call hm => exact hm
  | callFunction => exact hR.refl m
  | block | body => exact hR.enter m _ _
  | step hm => exact hR.trans hm (hR.enter _ _ _)
  | callInitializer => exact hR.boundInitializer m _ _

/-! ### The end of an evaluation -/

theorem final_bind_of_ok {ε α β : Type} {act : EStateM ε Machine α} {f : α → EStateM ε Machine β}
    {m m₁ : Machine} {a : α} (h : act m = .ok a m₁) : final (act >>= f) m = final (f a) m₁ := by
  simp only [final, Bind.bind, EStateM.bind, h]

theorem final_inNewFrame {α : Type} (step : Run α) (m : Machine) :
    final (inNewFrame step) m =
      { final step (m.enter m.current []) with current := m.current } := by
  unfold final
  rw [inNewFrame_eq]
  cases step (m.enter m.current []) <;> rfl

theorem Steady.before_exec (hR : Steady R) {n : Nat} {s : Stmt} {m : Machine} {X : Moment}
    (h : Within X ⟨n + 1, .exec s, m⟩) : R X.final (final (exec (n + 1) s) m) := by
  unfold exec
  cases h with
  | expression => exact hR.bind (hR.refl _) fun v m₁ _ => hR.refl m₁
  | result => exact hR.bind (hR.refl _) fun v m₁ _ => hR.refl m₁
  | print =>
    refine hR.bind (hR.refl _) fun v m₁ _ => hR.read ?_
    exact hR.bind (hR.host m₁ _) fun _ m₂ _ => hR.refl m₂
  | declared =>
    refine hR.bind (hR.refl _) fun v m₁ _ => ?_
    exact hR.bind (hR.define m₁ _ _ _ trivial) fun _ m₂ _ => hR.refl m₂
  | block =>
    rw [final_inNewFrame]
    exact hR.moved _ _
  | @choice _ _ test yes no? =>
    refine hR.bind (hR.refl _) fun v m₁ _ => ?_
    split
    · exact hR.ran n (.exec yes) m₁
    · cases no? with
      | none => exact hR.refl m₁
      | some no => exact hR.ran n (.exec no) m₁
  | chosenYes htest hv =>
    rw [final_bind_of_ok htest, if_pos hv]
    exact hR.refl _
  | chosenNo htest hv =>
    rw [final_bind_of_ok htest, if_neg (Bool.eq_false_iff.mp hv)]
    exact hR.refl _
  | loop => exact hR.refl _

theorem Steady.before_execAll (hR : Steady R) {n : Nat} {ss : List Stmt} {m : Machine} {X : Moment}
    (h : Within X ⟨n + 1, .execAll ss, m⟩) : R X.final (final (execAll (n + 1) ss) m) := by
  cases h with
  | @first _ _ s ss =>
    unfold execAll
    refine hR.bind (hR.refl _) fun flow m₁ _ => ?_
    cases flow with
    | normal => exact hR.ran n (.execAll ss) m₁
    | _ => exact hR.refl m₁
  | others hfirst =>
    unfold execAll
    rw [final_bind_of_ok hfirst]
    exact hR.refl _

/-- What comes behind the body of a loop takes time as well. -/
theorem Steady.loopRest (hR : Steady R) (n : Nat) (test : Expr) (body : Stmt) (step : Option Stmt)
    (flow : Flow) (m : Machine) : R m (final (match flow with
      | .normal => execLoop n test body step
      | .exitLoop => return .normal
      | .nextIteration =>
        match step with
        | some s => do
          let _ ← inNewFrame (execAll n [s])
          execLoop n test body step
        | none => execLoop n test body step
      | .result v => return .result v : Run Flow) m) := by
  have hagain : ∀ m, R m (final (execLoop n test body step) m) :=
    fun m => hR.ran n (.execLoop test body step) m
  cases flow with
  | normal => exact hagain m
  | exitLoop | result => exact hR.refl m
  | nextIteration =>
    cases step with
    | none => exact hagain m
    | some s => exact hR.bind (hR.inNewFrame (hR.ran n (.execAll [s]) _)) fun _ m₁ _ => hagain m₁

theorem Steady.before_execLoop (hR : Steady R) {n : Nat} {test : Expr} {body : Stmt}
    {step : Option Stmt} {m : Machine} {X : Moment}
    (h : Within X ⟨n + 1, .execLoop test body step, m⟩) :
    R X.final (final (execLoop (n + 1) test body step) m) := by
  unfold execLoop
  cases h with
  | loopTest =>
    refine hR.bind (hR.refl _) fun v m₁ _ => ?_
    split
    · exact hR.bind (hR.ran n (.exec body) m₁) fun flow m₂ _ => hR.loopRest _ _ _ _ flow m₂
    · exact hR.refl m₁
  | loopBody htest hv =>
    rw [final_bind_of_ok htest, if_pos hv]
    exact hR.bind (hR.refl _) fun flow m₂ _ => hR.loopRest _ _ _ _ flow m₂
  | loopAgain htest hv hrun =>
    rw [final_bind_of_ok htest, if_pos hv, final_bind_of_ok hrun]
    exact hR.refl _
  | loopStep htest hv hrun =>
    rw [final_bind_of_ok htest, if_pos hv, final_bind_of_ok hrun]
    refine hR.bind ?_ fun _ m₃ _ => hR.ran n (.execLoop _ _ _) m₃
    rw [final_inNewFrame]
    exact hR.moved _ _
  | loopStepped htest hv hrun hstepped =>
    have hframe : ∀ {s flow m₃} {m₂ : Machine},
        execAll n [s] (m₂.enter m₂.current []) = .ok flow m₃ →
        inNewFrame (execAll n [s]) m₂ = .ok flow { m₃ with current := m₂.current } := by
      intro s flow m₃ m₂ h
      rw [inNewFrame_eq, h]
    rw [final_bind_of_ok htest, if_pos hv, final_bind_of_ok hrun]
    dsimp only
    rw [final_bind_of_ok (hframe hstepped)]
    exact hR.refl _
  | loopCutShort htest hv hrun =>
    rw [final_bind_of_ok htest, if_pos hv, final_bind_of_ok hrun]
    exact hR.refl _

theorem Steady.before_eval (hR : Steady R) {n : Nat} {e : Expr} {m : Machine} {X : Moment}
    (h : Within X ⟨n + 1, .eval e, m⟩) : R X.final (final (eval (n + 1) e) m) := by
  unfold eval
  cases h with
  | group => exact hR.refl _
  | unary => exact hR.bind (hR.refl _) fun v m₁ _ => hR.orFail _ _
  | @binaryLeft _ _ left operator right =>
    refine hR.bind (hR.refl _) fun l m₁ _ => ?_
    exact hR.bind (hR.ran n (.eval right) m₁) fun r m₂ _ => hR.read (hR.orFail _ _)
  | binaryRight hleft =>
    rw [final_bind_of_ok hleft]
    exact hR.bind (hR.refl _) fun r m₂ _ => hR.read (hR.orFail _ _)
  | @logicalLeft _ _ left operator right =>
    refine hR.bind (hR.refl _) fun l m₁ _ => ?_
    by_cases hsettled : (if operator.kind = .orKw then l.truthy else !l.truthy) = true
    · rw [if_pos hsettled]
      exact hR.refl m₁
    · rw [if_neg hsettled]
      exact hR.ran n (.eval right) m₁
  | logicalRight hleft hopen =>
    rw [final_bind_of_ok hleft, if_neg (Bool.eq_false_iff.mp hopen)]
    exact hR.refl _
  | @conditionalTest _ _ test yes no =>
    refine hR.bind (hR.refl _) fun v m₁ _ => ?_
    split
    · exact hR.ran n (.eval yes) m₁
    · exact hR.ran n (.eval no) m₁
  | conditionalYes htest hv =>
    rw [final_bind_of_ok htest, if_pos hv]
    exact hR.refl _
  | conditionalNo htest hv =>
    rw [final_bind_of_ok htest, if_neg (Bool.eq_false_iff.mp hv)]
    exact hR.refl _
  | assign =>
    refine hR.bind (hR.refl _) fun v m₁ _ => ?_
    exact hR.bind (hR.assignName _ trivial v) fun _ m₂ _ => hR.refl m₂
  | @callee _ _ callee paren arguments =>
    refine hR.bind (hR.refl _) fun f m₁ _ => ?_
    exact hR.bind (hR.ran n (.evalAll arguments) m₁)
      fun vs m₂ _ => hR.ran n (.call f paren vs) m₂
  | @arguments _ _ callee paren arguments f m₁ hcallee =>
    rw [final_bind_of_ok hcallee]
    exact hR.bind (hR.refl _) fun vs m₂ _ => hR.ran n (.call f paren vs) m₂
  | call hcallee harguments =>
    rw [final_bind_of_ok hcallee, final_bind_of_ok harguments]
    exact hR.refl _
  | elements =>
    refine hR.bind (hR.refl _) fun vs m₁ _ => ?_
    exact hR.bind (hR.addArray m₁ _) fun a m₂ _ => hR.refl m₂
  | @indexBase _ _ bracket base key =>
    refine hR.bind (hR.refl _) fun b m₁ _ => ?_
    exact hR.bind (hR.ran n (.eval key) m₁) fun k m₂ _ => hR.readEntry bracket b k
  | @indexKey _ _ bracket base key b m₁ hbase =>
    rw [final_bind_of_ok hbase]
    exact hR.bind (hR.refl _) fun k m₂ _ => hR.readEntry bracket b k
  | @indexSetBase _ _ bracket base key e =>
    refine hR.bind (hR.refl _) fun b m₁ _ => ?_
    refine hR.bind (hR.ran n (.eval key) m₁) fun k m₂ _ => ?_
    exact hR.bind (hR.ran n (.eval e) m₂) fun v m₃ _ => hR.writeEntry bracket b k v
  | @indexSetKey _ _ bracket base key e b m₁ hbase =>
    rw [final_bind_of_ok hbase]
    refine hR.bind (hR.refl _) fun k m₂ _ => ?_
    exact hR.bind (hR.ran n (.eval e) m₂) fun v m₃ _ => hR.writeEntry bracket b k v
  | @indexSetValue _ _ bracket base key e b m₁ k m₂ hbase hkey =>
    rw [final_bind_of_ok hbase, final_bind_of_ok hkey]
    exact hR.bind (hR.refl _) fun v m₃ _ => hR.writeEntry bracket b k v
  | @getObject _ _ object name =>
    refine hR.bind (hR.refl _) fun v m₁ _ => ?_
    split
    · exact hR.property _ name fun _ _ _ => trivial
    · exact hR.refl m₁
  | @setObject _ _ object name e =>
    refine hR.bind (hR.refl _) fun v m₁ _ => ?_
    split
    · refine hR.bind (hR.ran n (.eval e) m₁) fun v m₂ _ => ?_
      exact hR.bind (hR.setField m₂ _ _ v) fun _ m₃ _ => hR.refl m₃
    · exact hR.refl m₁
  | setValue hobject =>
    rw [final_bind_of_ok hobject]
    refine hR.bind (hR.refl _) fun v m₂ _ => ?_
    exact hR.bind (hR.setField m₂ _ _ v) fun _ m₃ _ => hR.refl m₃

theorem Steady.before_evalAll (hR : Steady R) {n : Nat} {es : List Expr} {m : Machine} {X : Moment}
    (h : Within X ⟨n + 1, .evalAll es, m⟩) : R X.final (final (evalAll (n + 1) es) m) := by
  cases h with
  | @element _ _ e es =>
    unfold evalAll
    refine hR.bind (hR.refl _) fun v m₁ _ => ?_
    exact hR.bind (hR.ran n (.evalAll es) m₁) fun vs m₂ _ => hR.refl m₂
  | otherElements hfirst =>
    unfold evalAll
    rw [final_bind_of_ok hfirst]
    exact hR.bind (hR.refl _) fun vs m₂ _ => hR.refl m₂

theorem Steady.before_call (hR : Steady R) {n : Nat} {callee : Value} {paren : Token}
    {vs : List Value} {m : Machine} {X : Moment} (h : Within X ⟨n + 1, .call callee paren vs, m⟩) :
    R X.final (final (Machine.call (n + 1) callee paren vs) m) := by
  have harity : ∀ {expected}, expected = vs.length →
      checkArity paren expected vs.length = (pure () : Run Unit) := fun h => if_pos h
  unfold Machine.call
  cases h with
  | @callFunction _ _ f _ _ h =>
    change R _ (final (checkArity paren (m.store.closure f).decl.arity vs.length >>= fun _ =>
      apply n (m.store.closure f) paren vs) m)
    rw [harity h]
    exact hR.refl _
  | @callInitializer _ _ k _ _ initializer hmethod h =>
    change R _ (final (checkArity paren ((((m.store.classInfo k).methods.find? initializerName).map
      fun c => c.decl.arity).getD 0) vs.length >>= fun _ => _) m)
    rw [hmethod, Option.map_some, Option.getD_some, harity h]
    change R _ (final (apply n (m.boundInitializer k initializer).1 paren vs >>= fun _ =>
      pure (Value.instanceRef (m.store.addInstance k).1)) (m.boundInitializer k initializer).2)
    exact hR.bind (hR.refl _) fun v m₁ _ => hR.refl m₁

theorem Steady.before_apply (hR : Steady R) {n : Nat} {c : Closure} {paren : Token}
    {vs : List Value} {m : Machine} {X : Moment} (h : Within X ⟨n + 1, .apply c paren vs, m⟩) :
    R X.final (final (apply (n + 1) c paren vs) m) := by
  cases h with
  | body =>
    unfold Moment.final final
    rw [apply_eq]
    dsimp only [Task.run]
    cases execAll n c.decl.body (m.enter c.frame (argumentBindings c vs)) with
    | ok flow m₁ => exact hR.trans (hR.moved m₁ m.current) (hR.callResult c paren flow)
    | error e m₁ => exact hR.moved m₁ m.current

/-- Up to the end of an evaluation from the end of one that it starts. -/
theorem Steady.before (hR : Steady R) {X M : Moment} (h : Within X M) : R X.final M.final := by
  obtain ⟨k, task, m⟩ := M
  cases h.fuel
  cases task with
  | exec s => exact hR.before_exec h
  | execAll ss => exact hR.before_execAll h
  | execLoop test body step => exact hR.before_execLoop h
  | eval e => exact hR.before_eval h
  | evalAll es => exact hR.before_evalAll h
  | call callee paren vs => exact hR.before_call h
  | apply c paren vs => exact hR.before_apply h

/-! ### A whole run -/

theorem Steady.during (hR : Steady R) {X M : Moment} (h : During X M) :
    R M.machine X.machine ∧ R X.final M.final := by
  induction h with
  | refl => exact ⟨hR.refl _, hR.refl _⟩
  | step hwithin _ ih => exact ⟨hR.trans ih.1 (hR.after hwithin), hR.trans (hR.before hwithin) ih.2⟩

theorem Steady.program (hR : Steady R) (fuel : Nat) (program : List Stmt) (m : Machine) :
    R m (final (execProgram fuel program) m) := by
  induction program generalizing m with
  | nil => exact hR.refl m
  | cons s ss ih =>
    unfold execProgram
    exact hR.bind (hR.ran fuel (.exec s) m) fun _ m₁ _ => ih m₁

/-- **What takes place while a program runs takes place between its start and its end.** -/
theorem Steady.reached (hR : Steady R) {fuel : Nat} {program : List Stmt} {m : Machine} {X : Moment}
    (h : Reached fuel program m X) :
    R m X.machine ∧ R X.final (final (execProgram fuel program) m) := by
  induction h with
  | @here s ss m X hduring =>
    obtain ⟨hstart, hend⟩ := hR.during hduring
    refine ⟨hstart, hR.trans hend ?_⟩
    unfold execProgram
    exact hR.bind (hR.refl _) fun _ m₁ _ => hR.program fuel ss m₁
  | @later s ss m flow m₁ X hrun _ ih =>
    have hfirst : R m m₁ := by
      have hs := hR.ran fuel (.exec s) m
      simpa only [final, Task.run, hrun] using hs
    refine ⟨hR.trans hfirst ih.1, ?_⟩
    unfold execProgram
    rw [final_bind_of_ok hrun]
    exact ih.2

end Machine

end Roteiro
