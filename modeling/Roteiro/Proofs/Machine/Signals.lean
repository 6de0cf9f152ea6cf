import Roteiro.Proofs.Machine.Code
import Roteiro.Proofs.Scope.Signals

/-!
# Signals never leak

A statement ends normally or with a signal that its shape allows (`exec_flow`), and the analysis has
seen to it that every such signal has a taker. So no statement of an accepted program ends with a
signal, and no body that is called ends with a signal for a loop (`signals_taken`), as long as all
functions in the store come from accepted programs. Running an accepted program keeps them so.
-/

namespace Roteiro

open Scope

/-- All functions and methods in the store come from accepted programs. -/
structure Store.Accepted (s : Store) : Prop where
  functions : ∀ c ∈ s.functions, FromAccepted c.decl
  methods : ∀ k ∈ s.classes, ∀ p ∈ k.methods, FromAccepted p.2.decl

namespace Machine

/-! ### How statements end -/

/-- With so much fuel, statements end normally or with a signal that their shape allows. -/
structure Flows (n : Nat) : Prop where
  exec : ∀ {s m flow m'}, exec n s m = .ok flow m' → flow = .normal ∨ Passes s flow
  execAll : ∀ {ss m flow m'}, execAll n ss m = .ok flow m' →
    flow = .normal ∨ ∃ s ∈ ss, Passes s flow
  execLoop : ∀ {test body step m flow m'}, execLoop n test body step m = .ok flow m' →
    flow = .normal ∨ Passes (.loop test body step) flow

variable {n : Nat} {m m' : Machine} {flow : Flow}

theorem Flows.exec_step (ih : Flows n) {s : Stmt} (h : Machine.exec (n + 1) s m = .ok flow m') :
    flow = .normal ∨ Passes s flow := by
  unfold Machine.exec at h
  cases s with
  | expression e =>
    obtain ⟨v, m₁, -, hend⟩ := bind_ok h
    cases hend
    exact .inl rfl
  | print e =>
    obtain ⟨v, m₁, -, h⟩ := bind_ok h
    obtain ⟨text, m₂, -, h⟩ := bind_ok h
    obtain ⟨_, m₃, -, hend⟩ := bind_ok h
    cases hend
    exact .inl rfl
  | var name e? =>
    cases e? with
    | none =>
      obtain ⟨_, m₁, -, hend⟩ := bind_ok h
      cases hend
      exact .inl rfl
    | some e =>
      obtain ⟨v, m₁, -, h⟩ := bind_ok h
      obtain ⟨_, m₂, -, hend⟩ := bind_ok h
      cases hend
      exact .inl rfl
  | block body =>
    obtain ⟨m₁, hbody, -⟩ := inNewFrame_ok h
    rcases ih.execAll hbody with hnormal | ⟨s, hs, hpasses⟩
    · exact .inl hnormal
    · exact .inr (.block hs hpasses)
  | ifElse test yes no? =>
    obtain ⟨v, m₁, -, h⟩ := bind_ok h
    split at h
    · exact (ih.exec h).imp_right .yes
    · cases no? with
      | none =>
        cases h
        exact .inl rfl
      | some no => exact (ih.exec h).imp_right .no
  | loop test body step => exact ih.execLoop h
  | exitLoop keyword =>
    cases h
    exact .inr .exitLoop
  | nextIteration keyword =>
    cases h
    exact .inr .nextIteration
  | function decl =>
    obtain ⟨f, m₁, -, h⟩ := bind_ok h
    obtain ⟨_, m₂, -, hend⟩ := bind_ok h
    cases hend
    exact .inl rfl
  | result keyword e? =>
    cases e? with
    | none =>
      cases h
      exact .inr .result
    | some e =>
      obtain ⟨v, m₁, -, hend⟩ := bind_ok h
      cases hend
      exact .inr .result
  | classDecl name methods =>
    obtain ⟨c, m₁, -, h⟩ := bind_ok h
    obtain ⟨_, m₂, -, hend⟩ := bind_ok h
    cases hend
    exact .inl rfl

theorem Flows.execAll_step (ih : Flows n) {ss : List Stmt}
    (h : Machine.execAll (n + 1) ss m = .ok flow m') :
    flow = .normal ∨ ∃ s ∈ ss, Passes s flow := by
  unfold Machine.execAll at h
  cases ss with
  | nil =>
    cases h
    exact .inl rfl
  | cons s ss =>
    obtain ⟨first, m₁, hfirst, h⟩ := bind_ok h
    have hs := ih.exec hfirst
    cases first with
    | normal =>
      rcases ih.execAll h with hnormal | ⟨t, ht, hpasses⟩
      · exact .inl hnormal
      · exact .inr ⟨t, List.mem_cons_of_mem s ht, hpasses⟩
    | exitLoop | nextIteration | result v =>
      cases h
      exact .inr ⟨s, List.mem_cons_self, hs.resolve_left Flow.noConfusion⟩

/-- A loop takes up the signals of its body other than a result. -/
theorem Flows.execLoop_step (ih : Flows n) {test : Expr} {body : Stmt} {step : Option Stmt}
    (h : Machine.execLoop (n + 1) test body step m = .ok flow m') :
    flow = .normal ∨ Passes (.loop test body step) flow := by
  unfold Machine.execLoop at h
  obtain ⟨v, m₁, -, h⟩ := bind_ok h
  split at h
  · obtain ⟨last, m₂, hbody, h⟩ := bind_ok h
    cases last with
    | normal => exact ih.execLoop h
    | exitLoop =>
      cases h
      exact .inl rfl
    | nextIteration =>
      cases step with
      | none => exact ih.execLoop h
      | some s =>
        obtain ⟨_, m₃, -, h⟩ := bind_ok h
        exact ih.execLoop h
    | result v =>
      cases h
      exact .inr (.loop ((ih.exec hbody).resolve_left Flow.noConfusion))
  · cases h
    exact .inl rfl

theorem flows (n : Nat) : Flows n := by
  induction n with
  | zero =>
    constructor
    all_goals
      intros
      rename_i h
      cases h
  | succ n ih => exact ⟨ih.exec_step, ih.execAll_step, ih.execLoop_step⟩

/-! ### Where the functions of a run come from -/

/-- The functions that are written in a task. -/
def Task.functions : Task → List FunctionDecl
  | exec s => s.functions
  | execAll ss => functionsOfStmts ss
  | execLoop test body none => test.functions ++ body.functions
  | execLoop test body (some step) => test.functions ++ (body.functions ++ step.functions)
  | eval e => e.functions
  | evalAll es => functionsOfExprs es
  | call _ _ _ => []
  | apply c _ _ => c.decl.functions

/-- What is written in a part of a task is written in the task. -/
theorem Task.functions_part (task : Task) :
    ∀ part ∈ task.parts, part.functions ⊆ task.functions := by
  unfold parts
  split
  -- what may be missing in a statement is the only thing to tell apart
  case h_3 e? | h_6 e? => cases e? <;> simp [functions]
  case h_4 no? => cases no? <;> simp +contextual [functions, List.subset_def, or_imp]
  case h_5 step => cases step <;> simp [functions]
  case h_8 stmts => cases stmts <;> simp [functions]
  case h_9 step => cases step <;> simp +contextual [functions, List.subset_def, or_imp]
  all_goals simp +contextual [functions, List.subset_def, or_imp]

/-- A function that there is not is an empty one. -/
theorem fromAccepted_default : FromAccepted (default : Closure).decl := by
  refine ⟨[.expression (.lambda default)], ∅, by decide +kernel, ?_⟩
  exact List.mem_append_left _ (FunctionDecl.mem_functions_self _)

theorem accepted_iff_codes {s : Store} : s.Accepted ↔ s.Codes FromAccepted :=
  ⟨fun h => ⟨h.functions, h.methods⟩, fun h => ⟨h.functions, h.methods⟩⟩

theorem accepted_closure {s : Store} (h : s.Accepted) (f : Ref .functions) :
    FromAccepted (s.closure f).decl :=
  (accepted_iff_codes.mp h).closure fromAccepted_default f

theorem accepted_method {s : Store} (h : s.Accepted) {k : Ref .classes} {name : String}
    {method : Closure} (hmethod : (s.classInfo k).methods.find? name = some method) :
    FromAccepted method.decl :=
  (accepted_iff_codes.mp h).method hmethod

theorem accepted_addFunction {s : Store} (h : s.Accepted) {c : Closure} (hc : FromAccepted c.decl) :
    (s.addFunction c).2.Accepted :=
  accepted_iff_codes.mpr ((accepted_iff_codes.mp h).addFunction hc)

/-- Every action keeps the functions in the store accepted, if those that are made are. -/
theorem kept_accepted : Kept (fun m m' => m.store.Accepted → m'.store.Accepted)
    (fun _ _ c => FromAccepted c.decl) (fun _ => True) fun _ _ _ => True := by
  simpa only [accepted_iff_codes] using kept_codes FromAccepted

/-- All functions that are at hand come from accepted programs. -/
structure Accepted (M : Moment) : Prop where
  task : ∀ f ∈ M.task.functions, FromAccepted f
  store : M.machine.store.Accepted

theorem Accepted.makes {M : Moment} {m : Machine} {role : Role} {c : Closure}
    (h : Accepted M) (hmakes : Makes M m role c) : FromAccepted c.decl := by
  cases hmakes with
  | lambda => exact h.task _ (FunctionDecl.mem_functions_self _)
  | function => exact h.task _ (FunctionDecl.mem_functions_self _)
  | method hdecl =>
    exact h.task _ (mem_functionsOfMethods hdecl (FunctionDecl.mem_functions_self _))

theorem Accepted.leads {M' M : Moment} (h : Accepted M)
    (hleads : Leads (fun m m' => m.store.Accepted → m'.store.Accepted) M' M) : Accepted M' := by
  cases hleads with
  | part hpart hR => exact ⟨fun f hf => h.task f (Task.functions_part _ _ hpart hf), hR h.store⟩
  | others hfirst hR => exact ⟨fun f hf => h.task f (List.mem_append_right _ hf), hR h.store⟩
  | block => exact ⟨h.task, h.store.functions, h.store.methods⟩
  | step hR =>
    have hstore := hR h.store
    refine ⟨fun f hf => h.task f ?_, hstore.functions, hstore.methods⟩
    rcases List.mem_append.mp hf with hf | hf
    · exact List.mem_append_right _ (List.mem_append_right _ hf)
    · cases hf
  | call hR => exact ⟨fun f hf => (List.not_mem_nil hf).elim, hR h.store⟩
  | callFunction harity =>
    exact ⟨fun f hf => (accepted_closure h.store _).inside hf, h.store⟩
  | callInitializer hmethod harity =>
    refine ⟨fun f hf => (accepted_method h.store hmethod).inside hf, ?_⟩
    exact ⟨h.store.functions, h.store.methods⟩
  | @body n m c paren vs =>
    refine ⟨fun f hf => h.task f ?_, h.store.functions, h.store.methods⟩
    show f ∈ c.decl.functions
    rw [c.decl.functions_eq]
    exact List.mem_cons_of_mem _ hf

/-- **Signals never leak.** No statement of an accepted program ends with a signal, whatever the
machine; and if all functions in the store come from accepted programs, then no body that is called
while the program runs ends with a signal for a loop, and the functions in the store come from
accepted programs afterwards, too. -/
theorem signals_taken {program : List Stmt} {depths : Depths}
    (haccepted : (resolve program depths).accepted) {m : Machine} (hstore : m.store.Accepted)
    (fuel : Nat) :
    (∀ s ∈ program, ∀ n m₁ flow m₂, exec n s m₁ = .ok flow m₂ → flow = .normal) ∧
    (∀ n c paren arguments m₁ flow m₂,
      Reached fuel program m ⟨n + 1, .apply c paren arguments, m₁⟩ →
      execAll n c.decl.body (m₁.enter c.frame (argumentBindings c arguments)) = .ok flow m₂ →
      flow ≠ .exitLoop ∧ flow ≠ .nextIteration) ∧
    (final (execProgram fuel program) m).store.Accepted := by
  have hstart : ∀ s ∈ program, ∀ m', (m.store.Accepted → m'.store.Accepted) →
      Accepted ⟨fuel, .exec s, m'⟩ := by
    intro s hs m' hm'
    exact ⟨fun f hf => ⟨program, depths, haccepted, mem_functionsOfStmts hs hf⟩, hm' hstore⟩
  obtain ⟨hend, hreached⟩ := kept_accepted.program Accepted.makes (fun h _ => h.leads) hstart
  refine ⟨?_, ?_, hend hstore⟩
  · intro s hs n m₁ flow m₂ hrun
    rcases (flows n).exec hrun with hnormal | hpasses
    · exact hnormal
    · exact hpasses.not_mem_accepted haccepted hs
  · intro n c paren arguments m₁ flow m₂ hcall hrun
    have hc : FromAccepted c.decl :=
      (hreached _ hcall).task c.decl (FunctionDecl.mem_functions_self _)
    rcases (flows n).execAll hrun with rfl | ⟨s, hs, hpasses⟩
    · exact ⟨Flow.noConfusion, Flow.noConfusion⟩
    · exact hc.body hs hpasses

/-- `funcao f() { enquanto (verdadeiro) { pare; } retorne f; }`. -/
def leavingFunction : FunctionDecl :=
  ⟨some ⟨.identifier, "f", 1⟩, [],
    [.loop (.literal (.boolean true)) (.block [.exitLoop ⟨.breakKw, "pare", 1⟩]) none,
      .result ⟨.returnKw, "retorne", 1⟩ (some (.var 0 ⟨.identifier, "f", 1⟩))]⟩

/-- The declaration of `f` and `enquanto (f()) { f()(); pare; }`: signals on both sides of a call. -/
def leavingProgram : List Stmt :=
  let f (id : Nat) : Expr := .call (.var id ⟨.identifier, "f", 2⟩) ⟨.rightParen, ")", 2⟩ []
  [.function leavingFunction,
    .loop (f 1) (.block [.expression (.call (f 2) ⟨.rightParen, ")", 2⟩ []),
      .exitLoop ⟨.breakKw, "pare", 2⟩]) none]

theorem leavingProgram_accepted : (resolve leavingProgram ∅).accepted = true := by
  decide +kernel

/-- The function is in the store already when the program starts. -/
theorem leavingProgram_signals_taken :
    ((initial (.withInput [])).withFunction ⟨leavingFunction, Store.globals, false⟩).store.Accepted ∧
    ∀ s ∈ leavingProgram, ∀ n m₁ flow m₂, exec n s m₁ = .ok flow m₂ → flow = .normal := by
  have hinitial : Store.initial.Accepted := by
    constructor
    · intro c hc
      simp [Store.initial] at hc
    · intro k hk
      simp [Store.initial] at hk
  have hfunction : FromAccepted leavingFunction :=
    ⟨leavingProgram, ∅, leavingProgram_accepted,
      List.mem_append_left _ (FunctionDecl.mem_functions_self _)⟩
  have hstore := accepted_addFunction hinitial (c := ⟨_, Store.globals, false⟩) hfunction
  exact ⟨hstore, (signals_taken leavingProgram_accepted
    (m := (initial (.withInput [])).withFunction ⟨_, Store.globals, false⟩) hstore 0).1⟩

end Machine

end Roteiro
