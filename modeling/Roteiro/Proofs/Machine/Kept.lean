import Roteiro.Proofs.Machine.Moments

/-!
# What a run keeps

What an evaluation does besides the evaluations it starts is a matter of a few elementary actions:
writing, binding a name, adding something to the store, entering a frame and leaving it again.
`Kept R` lists what a relation between machines has to satisfy for each of them.

What has to be known of the program is `Known`: which functions are made on the way, which names are
bound, and which methods get a receiver. What is known depends on where the evaluation stands.
`Leads R` says how the start of an evaluation follows from the start of the one around it, when all
that is known of the evaluations between them is that they kept `R`.

* `Kept.everywhere`: if what is known passes along `Leads R`, then it holds at every moment of a
  run, and `R` holds between the start and the end of each evaluation, whether it gives a result,
  fails or runs out of fuel.
* `Kept.reached`: the same for a whole program.
* `Kept.run`: a relation that holds for all functions is kept by every evaluation.
-/

namespace Roteiro

namespace Machine

/-! ### Relations that every action keeps -/

/-- What a relation between machines has to satisfy to hold between the start and the end of every
evaluation. `Fn` is what is known of the functions that are made on the way, `Nm` of the names that
are bound, and `Rc` of the frames that get a receiver for a method. -/
structure Kept (R : Machine → Machine → Prop) (Fn : Role → Machine → Closure → Prop)
    (Nm : String → Prop) (Rc : Ref .frames → Ref .instances → Closure → Prop) : Prop where
  refl : ∀ m, R m m
  trans : ∀ {m₁ m₂ m₃}, R m₁ m₂ → R m₂ m₃ → R m₁ m₃
  host : ∀ m host, R m { m with host }
  define : ∀ m r name v, Nm name → R m { m with store := m.store.define r name v }
  putEntry : ∀ m a key v, R m { m with store := m.store.putEntry a key v }
  setField : ∀ m i name v, R m { m with store := m.store.setField i name v }
  addArray : ∀ m values, R m { m with store := (m.store.addArray (.ofList values)).2 }
  addInstance : ∀ m k, R m { m with store := (m.store.addInstance k).2 }
  addFrame : ∀ m around bindings, R m { m with store := (m.store.addFrame around bindings).2 }
  lambda : ∀ m c, Fn .function (m.withFunction c) c → R m (m.withFunction c)
  function : ∀ m decl, Nm decl.displayName →
    Fn .function (m.functionDeclared decl) ⟨decl, m.current, false⟩ → R m (m.functionDeclared decl)
  classDecl : ∀ m name methods, Nm name.lexeme →
    (∀ p ∈ methodBindings m.current methods, Fn .method (m.classDeclared name methods) p.2) →
    R m (m.classDeclared name methods)
  /-- A method is bound to a receiver and becomes a function of its own. -/
  bound : ∀ m k name method receiver, (m.store.classInfo k).methods.find? name = some method →
    Rc ⟨m.store.frames.size⟩ receiver method →
    R m { m with
      store := ((m.store.addFrame method.frame [(selfName, .instanceRef receiver)]).2.addFunction
        { method with
          frame := (m.store.addFrame method.frame [(selfName, .instanceRef receiver)]).1 }).2 }
  /-- A frame is entered, and left again. -/
  inside : ∀ m around bindings m', R (m.enter around bindings) m' →
    R m { m' with current := m.current }

/-- What is known of an evaluation. -/
structure Known (Fn : Role → Machine → Closure → Prop) (Nm : String → Prop)
    (Rc : Ref .frames → Ref .instances → Closure → Prop) (M : Moment) : Prop where
  makes : ∀ {m role c}, Makes M m role c → Fn role m c
  names : ∀ name ∈ M.task.binds, Nm name
  receivers : ∀ {F r method}, Receives M F r method → Rc F r method

theorem inFrame_eq {α : Type} (frame : Ref .frames) (step : Run α) (m : Machine) :
    inFrame frame step m = match step { m with current := frame } with
      | .ok a m' => .ok a { m' with current := m.current }
      | .error e m' => .error e { m' with current := m.current } := by
  obtain ⟨store, saved, depths, host⟩ := m
  simp only [inFrame]
  cases step ⟨store, frame, depths, host⟩ <;> rfl

theorem inNewFrame_eq {α : Type} (step : Run α) (m : Machine) :
    inNewFrame step m = match step (m.enter m.current []) with
      | .ok a m' => .ok a { m' with current := m.current }
      | .error e m' => .error e { m' with current := m.current } :=
  inFrame_eq (m.store.addFrame m.current []).1 step
    { m with store := (m.store.addFrame m.current []).2 }

/-- A step that goes on with its result went well, and so did what came behind it. -/
theorem bind_ok {ε α β : Type} {act : EStateM ε Machine α} {f : α → EStateM ε Machine β}
    {m m' : Machine} {b : β} (h : (act >>= f) m = .ok b m') :
    ∃ a m₁, act m = .ok a m₁ ∧ f a m₁ = .ok b m' := by
  simp only [Bind.bind, EStateM.bind] at h
  split at h
  · next a m₁ hrun => exact ⟨a, m₁, hrun, h⟩
  · cases h

/-- A step in a new frame ends the way it ends by itself. -/
theorem inNewFrame_ok {α : Type} {step : Run α} {m m' : Machine} {a : α}
    (h : inNewFrame step m = .ok a m') :
    ∃ m₁, step (m.enter m.current []) = .ok a m₁ ∧ m' = { m₁ with current := m.current } := by
  rw [inNewFrame_eq] at h
  split at h
  · next m₁ hrun =>
    cases h
    exact ⟨m₁, hrun, rfl⟩
  · cases h

/-- A call runs the body in a frame of its own, and then gives its result. -/
theorem apply_eq (n : Nat) (c : Closure) (paren : Token) (vs : List Value) (m : Machine) :
    apply (n + 1) c paren vs m =
      match execAll n c.decl.body (m.enter c.frame (argumentBindings c vs)) with
      | .ok flow m' => callResult c paren flow { m' with current := m.current }
      | .error e m' => .error e { m' with current := m.current } := by
  have hframe : apply (n + 1) c paren vs m =
      (inFrame (m.store.addFrame c.frame (argumentBindings c vs)).1 (execAll n c.decl.body) >>=
        callResult c paren) { m with store := (m.store.addFrame c.frame (argumentBindings c vs)).2 } := by
    unfold apply
    rfl
  rw [hframe]
  simp only [Bind.bind, EStateM.bind, inFrame_eq]
  unfold enter
  split <;> rename_i heq <;> split at heq <;> cases heq <;> simp [*]

section Kept

variable {R : Machine → Machine → Prop} {Fn : Role → Machine → Closure → Prop}
  {Nm : String → Prop} {Rc : Ref .frames → Ref .instances → Closure → Prop} {ε α β : Type}
  {act : EStateM ε Machine α} {f : α → EStateM ε Machine β} {m : Machine}

theorem Kept.bind (hR : Kept R Fn Nm Rc) {m₀ : Machine} (h : R m₀ (final act m))
    (hf : ∀ a m₁, act m = .ok a m₁ → R m₁ (final (f a) m₁)) : R m₀ (final (act >>= f) m) := by
  unfold final at h hf ⊢
  simp only [Bind.bind, EStateM.bind]
  cases hrun : act m with
  | error e m₁ => simpa only [hrun] using h
  | ok a m₁ =>
    simp only [hrun] at h ⊢
    exact hR.trans h (hf a m₁ hrun)

theorem Kept.orFail (hR : Kept R Fn Nm Rc) (token : Token) (result : Except Failure α) :
    R m (final (orFail token result) m) := by
  cases result <;> exact hR.refl m

theorem Kept.check (hR : Kept R Fn Nm Rc) (result : Except Failure α) :
    R m (final (Builtin.check result) m) := by
  cases result <;> exact hR.refl m

theorem Kept.newArray (hR : Kept R Fn Nm Rc) (values : List Value) :
    R m (final (Builtin.newArray (.ofList values)) m) :=
  hR.addArray m values

theorem Kept.nextLine (hR : Kept R Fn Nm Rc) : R m (final Builtin.nextLine m) := by
  have hhost := hR.host m { m.host with input := (Text.Utf8.splitLine m.host.input).2 }
  unfold final Builtin.nextLine
  by_cases hempty : (Text.Utf8.splitLine m.host.input).1.isEmpty
  · simpa only [hempty, if_true] using hhost
  · cases hdecode : Text.Utf8.decode (Text.Utf8.splitLine m.host.input).1 with
    | ok s => simpa only [hempty, hdecode, Bool.false_eq_true, if_false] using hhost
    | error e => simpa only [hempty, hdecode, Bool.false_eq_true, if_false] using hhost

/-- A builtin function only asks something of the host, or changes an array. -/
theorem Kept.builtin (hR : Kept R Fn Nm Rc) (b : Builtin) (arguments : List Value) :
    R m (final (b.call arguments) m) := by
  have hstore : ∀ {γ : Type} {g : Store → Builtin.Act γ} {m : Machine},
      (∀ s, R m (final (g s) m)) → R m (final (Builtin.store >>= g) m) :=
    fun h => hR.bind (hR.refl _) fun s m₁ hs => by cases hs; exact h _
  unfold Builtin.call
  split
  · exact hR.host m _
  · refine hR.bind (hR.check _) fun x m₁ _ => hR.bind (hR.check _) fun y m₂ _ => hR.refl m₂
  · exact hR.nextLine
  · refine hstore fun s => hR.bind (hR.check _) fun n m₁ _ => hR.refl m₁
  · refine hR.bind (hR.check _) fun a m₁ _ => hstore fun s => ?_
    exact hR.bind (hR.putEntry m₁ a _ _) fun _ m₂ _ => hR.refl m₂
  · refine hR.bind (hR.check _) fun a m₁ _ => hR.bind (hR.check _) fun k m₂ _ => ?_
    exact hR.bind (hR.putEntry m₂ a k _) fun _ m₃ _ => hR.refl m₃
  · refine hR.bind (hR.check _) fun a m₁ _ => hR.bind (hR.check _) fun k m₂ _ => ?_
    exact hstore fun s => hR.refl m₂
  · refine hR.bind (hR.check _) fun x m₁ _ => hR.bind (hR.check _) fun y m₂ _ => ?_
    split
    · exact hR.refl m₂
    · exact hR.host m₂ _
  · exact hstore fun s => hR.bind (hR.check _) fun n m₁ _ => hR.newArray _
  · exact hstore fun s => hR.bind (hR.check _) fun n m₁ _ => hR.newArray _
  · exact hstore fun s => hR.bind (hR.check _) fun n m₁ _ => hR.newArray _
  · exact hR.refl m

theorem Kept.read (h : Kept R Fn Nm Rc) {γ : Type} {read : Store → γ} {g : γ → Run β}
    (hg : R m (final (g (read m.store)) m)) : R m (final (withStore read >>= g) m) :=
  h.bind (h.refl m) fun _ _ hrun => by
    cases hrun
    exact hg

theorem Kept.readName (hR : Kept R Fn Nm Rc) (id : Nat) (name : Token) :
    R m (final (readName id name) m) := by
  unfold final Machine.readName
  dsimp only
  split
  · next heq =>
    split at heq <;> cases heq
    exact hR.refl m
  · next heq =>
    split at heq <;> cases heq
    exact hR.refl m

theorem Kept.assignName (hR : Kept R Fn Nm Rc) (id : Nat) {name : Token} (hname : Nm name.lexeme)
    (v : Value) : R m (final (assignName id name v) m) := by
  unfold final Machine.assignName
  cases m.owner? id name.lexeme with
  | none => exact hR.refl m
  | some frame => exact hR.define m frame _ v hname

theorem Kept.arrayAt (hR : Kept R Fn Nm Rc) (bracket : Token) (v : Value) :
    R m (final (arrayAt bracket v) m) := by
  cases v <;> exact hR.refl m

theorem Kept.keyAt (hR : Kept R Fn Nm Rc) (bracket : Token) (v : Value) :
    R m (final (keyAt bracket v) m) := by
  unfold Machine.keyAt
  cases v.key? <;> exact hR.refl m

/-- The end of an index expression, when array and key have their values. -/
theorem Kept.readEntry (hR : Kept R Fn Nm Rc) (bracket : Token) (base key : Value) :
    R m (final (do
      let a ← Machine.arrayAt bracket base
      let k ← Machine.keyAt bracket key
      let found ← withStore fun s => (s.table a).get? k
      match found with
      | some v => return v
      | none => fail bracket (.undefinedKey k) : Run Value) m) := by
  refine hR.bind (hR.arrayAt bracket base) fun a m₁ _ => ?_
  refine hR.bind (hR.keyAt bracket key) fun k m₂ _ => hR.read ?_
  split <;> exact hR.refl m₂

/-- The end of an assignment to an entry. -/
theorem Kept.writeEntry (hR : Kept R Fn Nm Rc) (bracket : Token) (base key v : Value) :
    R m (final (do
      let a ← Machine.arrayAt bracket base
      let k ← Machine.keyAt bracket key
      changeStore fun s => s.putEntry a k v
      return v : Run Value) m) := by
  refine hR.bind (hR.arrayAt bracket base) fun a m₁ _ => ?_
  refine hR.bind (hR.keyAt bracket key) fun k m₂ _ => ?_
  exact hR.bind (hR.putEntry m₂ a k v) fun _ m₃ _ => hR.refl m₃

/-- What comes behind a check of the number of arguments may rely on it. -/
theorem Kept.checkArity (hR : Kept R Fn Nm Rc) {paren : Token} {expected got : Nat} {g : Unit → Run β}
    (h : expected = got → R m (final (g ()) m)) :
    R m (final (checkArity paren expected got >>= g) m) := by
  unfold Machine.checkArity
  split
  · next heq => exact h heq
  · exact hR.refl m

theorem Kept.inNewFrame (hR : Kept R Fn Nm Rc) {act : Run α}
    (h : R (m.enter m.current []) (final act (m.enter m.current []))) :
    R m (final (inNewFrame act) m) := by
  have hinside := hR.inside m m.current [] _ h
  unfold final at hinside ⊢
  rw [inNewFrame_eq]
  cases hrun : act (m.enter m.current []) <;> simpa only [hrun] using hinside

/-- A method that is found gets the instance as its receiver. -/
theorem Kept.property (hR : Kept R Fn Nm Rc) (receiver : Ref .instances) (name : Token)
    (h : ∀ method, (m.store.instanceAt receiver).fields.find? name.lexeme = none →
      (m.store.classInfo (m.store.instanceAt receiver).classRef).methods.find? name.lexeme =
        some method → Rc ⟨m.store.frames.size⟩ receiver method) :
    R m (final (property receiver name) m) := by
  unfold Machine.property
  refine hR.read ?_
  split
  · exact hR.refl m
  · next hfield =>
    refine hR.read ?_
    split
    · next hmethod => exact hR.bound m _ _ _ _ hmethod (h _ hfield hmethod)
    · exact hR.refl m

theorem Kept.call_builtin (hR : Kept R Fn Nm Rc) (b : Builtin) (paren : Token) (vs : List Value) :
    R m (final (callBuiltin b paren vs) m) := by
  have hb : R m (final (b.call vs) m) := hR.builtin b vs
  unfold final callBuiltin at *
  cases hrun : b.call vs m with
  | ok v m₁ => simpa only [hrun] using hb
  | error failure m₁ =>
    simp only [hrun] at hb ⊢
    exact hb

theorem Kept.callResult (hR : Kept R Fn Nm Rc) (c : Closure) (paren : Token) (flow : Flow) :
    R m (final (callResult c paren flow) m) := by
  unfold Machine.callResult
  split
  · refine hR.read ?_
    split <;> exact hR.refl m
  · split <;> exact hR.refl m

/-- The actions of a single evaluation, if those it starts keep the relation. -/
theorem Kept.exec_step (hR : Kept R Fn Nm Rc) {n : Nat} {s : Stmt}
    (hknown : Known Fn Nm Rc ⟨n + 1, .exec s, m⟩)
    (hsub : ∀ M, Within M ⟨n + 1, .exec s, m⟩ → R M.machine M.final) :
    R m (final (exec (n + 1) s) m) := by
  unfold exec
  cases s with
  | expression e => exact hR.bind (hsub _ .expression) fun v m₁ _ => hR.refl m₁
  | print e =>
    refine hR.bind (hsub _ .print) fun v m₁ _ => hR.read ?_
    exact hR.bind (hR.host m₁ _) fun _ m₂ _ => hR.refl m₂
  | var name e? =>
    have hname : Nm name.lexeme := hknown.names _ List.mem_cons_self
    cases e? with
    | none => exact hR.bind (hR.define m _ _ _ hname) fun _ m₁ _ => hR.refl m₁
    | some e =>
      refine hR.bind (hsub _ .declared) fun v m₁ _ => ?_
      exact hR.bind (hR.define m₁ _ _ _ hname) fun _ m₂ _ => hR.refl m₂
  | block body => exact hR.inNewFrame (hsub _ .block)
  | ifElse test yes no? =>
    refine hR.bind (hsub _ .choice) fun v m₁ htest => ?_
    split
    · next hv => exact hsub _ (.chosenYes htest hv)
    · next hv =>
      cases no? with
      | none => exact hR.refl m₁
      | some no => exact hsub _ (.chosenNo htest (Bool.eq_false_iff.mpr hv))
  | loop test body step => exact hsub _ .loop
  | exitLoop keyword => exact hR.refl m
  | nextIteration keyword => exact hR.refl m
  | function decl =>
    exact hR.function m decl (hknown.names _ List.mem_cons_self) (hknown.makes .function)
  | result keyword e? =>
    cases e? with
    | none => exact hR.refl m
    | some e => exact hR.bind (hsub _ .result) fun v m₁ _ => hR.refl m₁
  | classDecl name methods =>
    refine hR.classDecl m name methods (hknown.names _ List.mem_cons_self) fun p hp => ?_
    obtain ⟨decl, hdecl, rfl⟩ := mem_methodBindings hp
    exact hknown.makes (.method hdecl)

theorem Kept.execAll_step (hR : Kept R Fn Nm Rc) {n : Nat} {ss : List Stmt}
    (hsub : ∀ M, Within M ⟨n + 1, .execAll ss, m⟩ → R M.machine M.final) :
    R m (final (execAll (n + 1) ss) m) := by
  cases ss with
  | nil =>
    unfold execAll
    exact hR.refl m
  | cons s ss =>
    unfold execAll
    refine hR.bind (hsub _ .first) fun flow m₁ hfirst => ?_
    cases flow with
    | normal => exact hsub _ (.others hfirst)
    | _ => exact hR.refl m₁

theorem Kept.execLoop_step (hR : Kept R Fn Nm Rc) {n : Nat} {test : Expr} {body : Stmt}
    {step : Option Stmt}
    (hsub : ∀ M, Within M ⟨n + 1, .execLoop test body step, m⟩ → R M.machine M.final) :
    R m (final (execLoop (n + 1) test body step) m) := by
  unfold execLoop
  refine hR.bind (hsub _ .loopTest) fun v m₁ htest => ?_
  split
  · next hv =>
    refine hR.bind (hsub _ (.loopBody htest hv)) fun flow m₂ hbody => ?_
    cases flow with
    | normal => exact hsub _ (.loopAgain htest hv hbody)
    | exitLoop => exact hR.refl m₂
    | nextIteration =>
      cases step with
      | none => exact hsub _ (.loopCutShort htest hv hbody)
      | some s =>
        refine hR.bind (hR.inNewFrame (hsub _ (.loopStep htest hv hbody))) fun flow m₃ hstep => ?_
        rw [inNewFrame_eq] at hstep
        split at hstep
        · next hrun =>
          cases hstep
          exact hsub _ (.loopStepped htest hv hbody hrun)
        · cases hstep
    | result v => exact hR.refl m₂
  · exact hR.refl m₁

theorem Kept.eval_step (hR : Kept R Fn Nm Rc) {n : Nat} {e : Expr}
    (hknown : Known Fn Nm Rc ⟨n + 1, .eval e, m⟩)
    (hsub : ∀ M, Within M ⟨n + 1, .eval e, m⟩ → R M.machine M.final) :
    R m (final (eval (n + 1) e) m) := by
  unfold eval
  cases e with
  | literal value => exact hR.refl m
  | group inner => exact hsub _ .group
  | unary operator operand => exact hR.bind (hsub _ .unary) fun v m₁ _ => hR.orFail _ _
  | binary left operator right =>
    refine hR.bind (hsub _ .binaryLeft) fun l m₁ hleft => ?_
    exact hR.bind (hsub _ (.binaryRight hleft)) fun r m₂ _ => hR.read (hR.orFail _ _)
  | logical left operator right =>
    refine hR.bind (hsub _ .logicalLeft) fun l m₁ hleft => ?_
    by_cases hsettled : (if operator.kind = .orKw then l.truthy else !l.truthy) = true
    · rw [if_pos hsettled]
      exact hR.refl m₁
    · rw [if_neg hsettled]
      exact hsub _ (.logicalRight hleft (Bool.eq_false_iff.mpr hsettled))
  | conditional test yes no =>
    refine hR.bind (hsub _ .conditionalTest) fun v m₁ htest => ?_
    split
    · next hv => exact hsub _ (.conditionalYes htest hv)
    · next hv => exact hsub _ (.conditionalNo htest (Bool.eq_false_iff.mpr hv))
  | var id name => exact hR.readName id name
  | self id keyword => exact hR.readName id keyword
  | assign id name e =>
    refine hR.bind (hsub _ .assign) fun v m₁ _ => ?_
    exact hR.bind (hR.assignName id (hknown.names _ List.mem_cons_self) v) fun _ m₂ _ => hR.refl m₂
  | call callee paren arguments =>
    refine hR.bind (hsub _ .callee) fun f m₁ hcallee => ?_
    refine hR.bind (hsub _ (.arguments hcallee)) fun vs m₂ harguments => ?_
    exact hsub _ (.call hcallee harguments)
  | lambda decl => exact hR.lambda m _ (hknown.makes .lambda)
  | array bracket elements =>
    refine hR.bind (hsub _ .elements) fun vs m₁ _ => ?_
    exact hR.bind (hR.addArray m₁ _) fun a m₂ _ => hR.refl m₂
  | index bracket base key =>
    refine hR.bind (hsub _ .indexBase) fun b m₁ hbase => ?_
    exact hR.bind (hsub _ (.indexKey hbase)) fun k m₂ _ => hR.readEntry bracket b k
  | indexSet bracket base key e =>
    refine hR.bind (hsub _ .indexSetBase) fun b m₁ hbase => ?_
    refine hR.bind (hsub _ (.indexSetKey hbase)) fun k m₂ hkey => ?_
    exact hR.bind (hsub _ (.indexSetValue hbase hkey)) fun v m₃ _ => hR.writeEntry bracket b k v
  | get object name =>
    refine hR.bind (hsub _ .getObject) fun v m₁ hobject => ?_
    split
    · exact hR.property _ name fun method hfield hmethod =>
        hknown.receivers (.property hobject hfield hmethod)
    · exact hR.refl m₁
  | set object name e =>
    refine hR.bind (hsub _ .setObject) fun v m₁ hobject => ?_
    split
    · refine hR.bind (hsub _ (.setValue hobject)) fun v m₂ _ => ?_
      exact hR.bind (hR.setField m₂ _ _ v) fun _ m₃ _ => hR.refl m₃
    · exact hR.refl m₁

theorem Kept.evalAll_step (hR : Kept R Fn Nm Rc) {n : Nat} {es : List Expr}
    (hsub : ∀ M, Within M ⟨n + 1, .evalAll es, m⟩ → R M.machine M.final) :
    R m (final (evalAll (n + 1) es) m) := by
  cases es with
  | nil =>
    unfold evalAll
    exact hR.refl m
  | cons e es =>
    unfold evalAll
    refine hR.bind (hsub _ .element) fun v m₁ hfirst => ?_
    exact hR.bind (hsub _ (.otherElements hfirst)) fun vs m₂ _ => hR.refl m₂

theorem Kept.call_step (hR : Kept R Fn Nm Rc) {n : Nat} {callee : Value} {paren : Token}
    {vs : List Value} (hsub : ∀ M, Within M ⟨n + 1, .call callee paren vs, m⟩ → R M.machine M.final) :
    R m (final (call (n + 1) callee paren vs) m) := by
  unfold call
  cases callee with
  | function f =>
    refine hR.read (hR.checkArity fun harity => ?_)
    exact hsub _ (.callFunction harity)
  | builtin b => exact hR.call_builtin b paren vs
  | classRef k =>
    refine hR.read ?_
    cases hmethod : (m.store.classInfo k).methods.find? initializerName with
    | none =>
      exact hR.checkArity fun _ => hR.bind (hR.addInstance m k) fun receiver m₁ _ => hR.refl m₁
    | some initializer =>
      refine hR.checkArity fun harity => ?_
      refine hR.bind (hR.addInstance m k) fun receiver m₁ hreceiver => ?_
      refine hR.bind (hR.addFrame m₁ _ _) fun bound m₂ hbound => ?_
      cases hreceiver
      cases hbound
      refine hR.bind (hsub _ (.callInitializer hmethod harity)) fun v m₃ _ => hR.refl m₃
  | _ => exact hR.refl m

theorem Kept.apply_step (hR : Kept R Fn Nm Rc) {n : Nat} {c : Closure} {paren : Token}
    {vs : List Value} (hsub : ∀ M, Within M ⟨n + 1, .apply c paren vs, m⟩ → R M.machine M.final) :
    R m (final (apply (n + 1) c paren vs) m) := by
  have hbody : R m { final (execAll n c.decl.body) (m.enter c.frame (argumentBindings c vs)) with
      current := m.current } := hR.inside m c.frame (argumentBindings c vs) _ (hsub _ .body)
  unfold final at hbody ⊢
  rw [apply_eq]
  cases hrun : execAll n c.decl.body (m.enter c.frame (argumentBindings c vs)) with
  | ok flow m₁ =>
    simp only [hrun] at hbody ⊢
    exact hR.trans hbody (hR.callResult c paren flow)
  | error e m₁ => simpa only [hrun] using hbody

/-- What a single evaluation keeps, if the evaluations that it starts keep it. -/
theorem Kept.step (hR : Kept R Fn Nm Rc) {n : Nat} {task : Task}
    (hknown : Known Fn Nm Rc ⟨n + 1, task, m⟩)
    (hsub : ∀ M, Within M ⟨n + 1, task, m⟩ → R M.machine M.final) :
    R m (Moment.final ⟨n + 1, task, m⟩) := by
  cases task with
  | exec s => exact hR.exec_step hknown hsub
  | execAll ss => exact hR.execAll_step hsub
  | execLoop test body step => exact hR.execLoop_step hsub
  | eval e => exact hR.eval_step hknown hsub
  | evalAll es => exact hR.evalAll_step hsub
  | call callee paren vs => exact hR.call_step hsub
  | apply c paren vs => exact hR.apply_step hsub

end Kept

/-! ### What passes from one evaluation to those it starts -/

/-- The evaluations that a task may start in the frame it is started in. -/
def Task.parts : Task → List Task
  | exec (.expression e) | exec (.print e) => [eval e]
  | exec (.var _ e?) => e?.toList.map eval
  | exec (.ifElse test yes no?) => eval test :: exec yes :: no?.toList.map exec
  | exec (.loop test body step) => [execLoop test body step]
  | exec (.result _ e?) => e?.toList.map eval
  | exec _ => []
  | execAll stmts => stmts.head?.toList.map exec
  | execLoop test body step => [eval test, exec body, execLoop test body step]
  | eval (.group e) | eval (.unary _ e) | eval (.assign _ _ e) => [eval e]
  | eval (.binary left _ right) | eval (.logical left _ right) => [eval left, eval right]
  | eval (.conditional test yes no) => [eval test, eval yes, eval no]
  | eval (.call callee _ arguments) => [eval callee, evalAll arguments]
  | eval (.array _ elements) => [evalAll elements]
  | eval (.index _ base key) => [eval base, eval key]
  | eval (.indexSet _ base key e) => [eval base, eval key, eval e]
  | eval (.get object _) => [eval object]
  | eval (.set object _ e) => [eval object, eval e]
  | eval _ => []
  | evalAll [] => []
  | evalAll (e :: es) => [eval e, evalAll es]
  | call _ _ _ => []
  | apply _ _ _ => []

/-- How the start of an evaluation follows from the start of the one around it, for all that is
known if the evaluations between them kept `R`. -/
inductive Leads (R : Machine → Machine → Prop) : Moment → Moment → Prop
  | part {n m m' task task'} (hpart : task' ∈ task.parts) (hR : R m m') :
    Leads R ⟨n, task', m'⟩ ⟨n + 1, task, m⟩
  | others {n m s ss m₁} (hfirst : exec n s m = .ok .normal m₁) (hR : R m m₁) :
    Leads R ⟨n, .execAll ss, m₁⟩ ⟨n + 1, .execAll (s :: ss), m⟩
  | block {n m body} :
    Leads R ⟨n, .execAll body, m.enter m.current []⟩ ⟨n + 1, .exec (.block body), m⟩
  | step {n m m' test body s} (hR : R m m') :
    Leads R ⟨n, .execAll [s], m'.enter m'.current []⟩ ⟨n + 1, .execLoop test body (some s), m⟩
  | call {n m m' f vs callee paren arguments} (hR : R m m') :
    Leads R ⟨n, .call f paren vs, m'⟩ ⟨n + 1, .eval (.call callee paren arguments), m⟩
  | callFunction {n m f paren vs} (harity : (m.store.closure f).decl.arity = vs.length) :
    Leads R ⟨n, .apply (m.store.closure f) paren vs, m⟩ ⟨n + 1, .call (.function f) paren vs, m⟩
  | callInitializer {n m k paren vs initializer}
      (hmethod : (m.store.classInfo k).methods.find? initializerName = some initializer)
      (harity : initializer.decl.arity = vs.length) :
    Leads R ⟨n, .apply (m.boundInitializer k initializer).1 paren vs,
      (m.boundInitializer k initializer).2⟩ ⟨n + 1, .call (.classRef k) paren vs, m⟩
  | body {n m c paren vs} :
    Leads R ⟨n, .execAll c.decl.body, m.enter c.frame (argumentBindings c vs)⟩
      ⟨n + 1, .apply c paren vs, m⟩

section Kept

variable {R : Machine → Machine → Prop} {Fn : Role → Machine → Closure → Prop}
  {Nm : String → Prop} {Rc : Ref .frames → Ref .instances → Closure → Prop} {Pre : Moment → Prop}

/-- The evaluations that come before `M'` inside of the same evaluation have kept `R`, each because
what is known led to its start. -/
theorem Kept.leads (hR : Kept R Fn Nm Rc) {n : Nat} {task : Task} {m : Machine} {M' : Moment}
    (hpre : ∀ M, Within M ⟨n + 1, task, m⟩ → Leads R M ⟨n + 1, task, m⟩ → Pre M)
    (hkept : ∀ task m, Pre ⟨n, task, m⟩ → R m (Moment.final ⟨n, task, m⟩))
    (h : Within M' ⟨n + 1, task, m⟩) : Leads R M' ⟨n + 1, task, m⟩ := by
  have hr : R m m := hR.refl m
  have hthen : ∀ (task' : Task) {m₁ m₂ : Machine} {a : task'.Result},
      task'.run n m₁ = .ok a m₂ → Within ⟨n, task', m₁⟩ ⟨n + 1, task, m⟩ →
      Leads R ⟨n, task', m₁⟩ ⟨n + 1, task, m⟩ → R m₁ m₂ := by
    intro task' m₁ m₂ a hrun hwithin hleads
    have hfinal := hkept task' m₁ (hpre _ hwithin hleads)
    simp only [Moment.final, final, hrun] at hfinal
    exact hfinal
  -- a part that has come to its end, behind parts that have done so already
  have hpart : ∀ (task' : Task) {m₁ m₂ : Machine} {a : task'.Result}, R m m₁ →
      task'.run n m₁ = .ok a m₂ → Within ⟨n, task', m₁⟩ ⟨n + 1, task, m⟩ → task' ∈ task.parts →
      R m m₂ :=
    fun task' _ _ _ hR₁ hrun hwithin hmem =>
      hR.trans hR₁ (hthen task' hrun hwithin (.part hmem hR₁))
  cases h with
  | expression | print | declared | choice | loop | result | first | loopTest | group | unary
  | binaryLeft | logicalLeft | conditionalTest | assign | callee | elements | indexBase
  | indexSetBase | getObject | setObject | element => exact .part (by simp [Task.parts]) hr
  | chosenYes htest =>
    exact .part (by simp [Task.parts]) (hpart (.eval _) hr htest .choice (by simp [Task.parts]))
  | chosenNo htest =>
    exact .part (by simp [Task.parts]) (hpart (.eval _) hr htest .choice (by simp [Task.parts]))
  | others hfirst =>
    exact .others hfirst (hpart (.exec _) hr hfirst .first (by simp [Task.parts]))
  | loopBody htest =>
    exact .part (by simp [Task.parts]) (hpart (.eval _) hr htest .loopTest (by simp [Task.parts]))
  | loopAgain htest hv hbody | loopCutShort htest hv hbody =>
    have hR₁ := hpart (.eval _) hr htest .loopTest (by simp [Task.parts])
    have hR₂ := hpart (.exec _) hR₁ hbody (.loopBody htest hv) (by simp [Task.parts])
    exact .part (by simp [Task.parts]) hR₂
  | loopStep htest hv hbody =>
    have hR₁ := hpart (.eval _) hr htest .loopTest (by simp [Task.parts])
    exact .step (hpart (.exec _) hR₁ hbody (.loopBody htest hv) (by simp [Task.parts]))
  | loopStepped htest hv hbody hstep =>
    have hR₁ := hpart (.eval _) hr htest .loopTest (by simp [Task.parts])
    have hR₂ := hpart (.exec _) hR₁ hbody (.loopBody htest hv) (by simp [Task.parts])
    have hinside := hthen (.execAll _) hstep (.loopStep htest hv hbody) (.step hR₂)
    exact .part (by simp [Task.parts]) (hR.trans hR₂ (hR.inside _ _ _ _ hinside))
  | binaryRight hleft =>
    exact .part (by simp [Task.parts]) (hpart (.eval _) hr hleft .binaryLeft (by simp [Task.parts]))
  | logicalRight hleft =>
    exact .part (by simp [Task.parts]) (hpart (.eval _) hr hleft .logicalLeft (by simp [Task.parts]))
  | conditionalYes htest | conditionalNo htest =>
    exact .part (by simp [Task.parts])
      (hpart (.eval _) hr htest .conditionalTest (by simp [Task.parts]))
  | arguments hcallee =>
    exact .part (by simp [Task.parts]) (hpart (.eval _) hr hcallee .callee (by simp [Task.parts]))
  | call hcallee harguments =>
    have hR₁ := hpart (.eval _) hr hcallee .callee (by simp [Task.parts])
    exact .call (hpart (.evalAll _) hR₁ harguments (.arguments hcallee) (by simp [Task.parts]))
  | indexKey hbase =>
    exact .part (by simp [Task.parts]) (hpart (.eval _) hr hbase .indexBase (by simp [Task.parts]))
  | indexSetKey hbase =>
    exact .part (by simp [Task.parts]) (hpart (.eval _) hr hbase .indexSetBase (by simp [Task.parts]))
  | indexSetValue hbase hkey =>
    have hR₁ := hpart (.eval _) hr hbase .indexSetBase (by simp [Task.parts])
    exact .part (by simp [Task.parts])
      (hpart (.eval _) hR₁ hkey (.indexSetKey hbase) (by simp [Task.parts]))
  | setValue hobject =>
    exact .part (by simp [Task.parts]) (hpart (.eval _) hr hobject .setObject (by simp [Task.parts]))
  | otherElements hfirst =>
    exact .part (by simp [Task.parts]) (hpart (.eval _) hr hfirst .element (by simp [Task.parts]))
  | block => exact .block
  | callFunction harity => exact .callFunction harity
  | callInitializer hmethod harity => exact .callInitializer hmethod harity
  | body => exact .body

/-- **From one action to a whole run.** What passes along `Leads R` holds at every moment of an
evaluation, and `R` holds between its start and its end. -/
theorem Kept.everywhere (hR : Kept R Fn Nm Rc) (hknown : ∀ {M}, Pre M → Known Fn Nm Rc M)
    (hleads : ∀ {M' M}, Pre M → Within M' M → Leads R M' M → Pre M') {M : Moment} (hM : Pre M) :
    R M.machine M.final ∧ ∀ M', During M' M → Pre M' := by
  have hkept : ∀ n task m, Pre ⟨n, task, m⟩ → R m (Moment.final ⟨n, task, m⟩) := by
    intro n
    induction n with
    | zero => intro task m _; cases task <;> exact hR.refl m
    | succ n ih =>
      intro task m hpre
      refine hR.step (hknown hpre) fun M' hwithin => ?_
      have hlead := hR.leads (fun _ hin => hleads hpre hin) ih hwithin
      obtain ⟨k, task', m'⟩ := M'
      cases hwithin.fuel
      exact ih task' m' (hleads hpre hwithin hlead)
  refine ⟨hkept M.fuel M.task M.machine hM, fun M' hduring => ?_⟩
  induction hduring with
  | refl => exact hM
  | @step _ M₁ _ hwithin _ ih =>
    have hpre := ih hM
    obtain ⟨n, task, m⟩ := M₁
    cases hwithin.fuel
    exact hleads hpre hwithin (hR.leads (fun _ hin => hleads hpre hin) (hkept _) hwithin)

/-- The same for a whole program, whose statements are started one after the other. -/
theorem Kept.reached (hR : Kept R Fn Nm Rc) (hknown : ∀ {M}, Pre M → Known Fn Nm Rc M)
    (hleads : ∀ {M' M}, Pre M → Within M' M → Leads R M' M → Pre M') {fuel : Nat}
    {program : List Stmt} {m : Machine}
    (hstart : ∀ s ∈ program, ∀ m', R m m' → Reached fuel program m ⟨fuel, .exec s, m'⟩ →
      Pre ⟨fuel, .exec s, m'⟩) :
    R m (final (execProgram fuel program) m) ∧ ∀ M, Reached fuel program m M → Pre M := by
  induction program generalizing m with
  | nil =>
    refine ⟨hR.refl m, fun M h => ?_⟩
    cases h
  | cons s ss ih =>
    obtain ⟨hs, hduring⟩ := hR.everywhere hknown hleads
      (hstart s List.mem_cons_self m (hR.refl m) (.here (.refl _)))
    have hrest : ∀ flow m₁, exec fuel s m = .ok flow m₁ →
        ∀ t ∈ ss, ∀ m', R m₁ m' → Reached fuel ss m₁ ⟨fuel, .exec t, m'⟩ →
          Pre ⟨fuel, .exec t, m'⟩ := by
      intro flow m₁ hrun t ht m' hm' hreached
      have hm₁ : R m m₁ := by simpa only [Moment.final, final, Task.run, hrun] using hs
      exact hstart t (List.mem_cons_of_mem s ht) m' (hR.trans hm₁ hm') (.later hrun hreached)
    constructor
    · unfold execProgram
      exact hR.bind hs fun flow m₁ hrun => (ih (hrest flow m₁ hrun)).1
    · intro M hM
      cases hM with
      | here h => exact hduring M h
      | later hrun h => exact (ih (hrest _ _ hrun)).2 M h

/-- The same where it only matters which functions are made, and where each statement may start
anywhere. -/
theorem Kept.program (hR : Kept R Fn (fun _ => True) fun _ _ _ => True)
    (hmakes : ∀ {M m role c}, Pre M → Makes M m role c → Fn role m c)
    (hleads : ∀ {M' M}, Pre M → Within M' M → Leads R M' M → Pre M') {fuel : Nat}
    {program : List Stmt} {m : Machine}
    (hstart : ∀ s ∈ program, ∀ m', R m m' → Pre ⟨fuel, .exec s, m'⟩) :
    R m (final (execProgram fuel program) m) ∧ ∀ M, Reached fuel program m M → Pre M :=
  hR.reached (fun hM => ⟨hmakes hM, fun _ _ => trivial, fun _ => trivial⟩) hleads
    fun s hs m' hm' _ => hstart s hs m' hm'

/-- A relation that holds whatever functions are made is kept by every evaluation. -/
theorem Kept.run (hR : Kept R (fun _ _ _ => True) (fun _ => True) fun _ _ _ => True) (M : Moment) :
    R M.machine M.final := by
  have hM : (fun _ : Moment => True) M := trivial
  exact (hR.everywhere (fun _ => ⟨fun _ => trivial, fun _ _ => trivial, fun _ => trivial⟩)
    (fun _ _ _ => trivial) hM).1

end Kept

/-! ### The depths of a run -/

/-- No action changes the depths of name occurrences. -/
theorem kept_depths : Kept (fun m m' => m'.depths = m.depths) (fun _ _ _ => True) (fun _ => True)
    fun _ _ _ => True where
  refl _ := rfl
  trans h h' := h'.trans h
  host _ _ := rfl
  define _ _ _ _ _ := rfl
  putEntry _ _ _ _ := rfl
  setField _ _ _ _ := rfl
  addArray _ _ := rfl
  addInstance _ _ := rfl
  addFrame _ _ _ := rfl
  lambda _ _ _ := rfl
  function _ _ _ _ := rfl
  classDecl _ _ _ _ _ := rfl
  bound _ _ _ _ _ _ _ := rfl
  inside _ _ _ _ h := h

/-- All evaluations of a run have the depths that it was started with. -/
theorem Reached.depths {fuel : Nat} {program : List Stmt} {m : Machine} {M : Moment}
    (h : Reached fuel program m M) : M.machine.depths = m.depths := by
  have hreached : (final (execProgram fuel program) m).depths = m.depths ∧
      ∀ M, Reached fuel program m M → M.machine.depths = m.depths := by
    refine kept_depths.program (fun _ _ => trivial) (fun hM _ hleads => ?_) fun _ _ _ h => h
    cases hleads with
    | part _ hR | others _ hR | step hR | call hR => exact hR.trans hM
    | block | callFunction | callInitializer | body => exact hM
  exact hreached.2 M h

/-! ### The frame of a run -/

/-- No action leaves the present frame for good. -/
theorem kept_current : Kept (fun m m' => m'.current = m.current) (fun _ _ _ => True)
    (fun _ => True) fun _ _ _ => True where
  refl _ := rfl
  trans h h' := h'.trans h
  host _ _ := rfl
  define _ _ _ _ _ := rfl
  putEntry _ _ _ _ := rfl
  setField _ _ _ _ := rfl
  addArray _ _ := rfl
  addInstance _ _ := rfl
  addFrame _ _ _ := rfl
  lambda _ _ _ := rfl
  function _ _ _ _ := rfl
  classDecl _ _ _ _ _ := rfl
  bound _ _ _ _ _ _ _ := rfl
  inside _ _ _ _ _ := rfl

end Machine

end Roteiro
