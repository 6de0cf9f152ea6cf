import Roteiro.Proofs.Machine.Frames

/-!
# Initializers know their receivers

A method is of no use to a program before it has been looked up on an instance. What comes out of
that is a function of its own, whose frame holds the instance. So every function in the store that
is an initializer has its receiver in the frame it lies in, and since nothing binds the name of the
receiver it is still there when the function is called, and when the call has come to its end.

* `kept_prepares`: no action makes an initializer without a receiver, or takes the receiver away.
* `prepared_run`: this holds at every moment of a run.
* `callResult_boundTo`: an initializer gives its receiver, however its body ends.
-/

namespace Roteiro

open Scope

namespace Machine

/-- The function comes from a lookup of its method on the instance `r`, and has `r` in its frame. -/
structure BoundTo (V : Moment → Prop) (s : Store) (c : Closure) (r : Ref .instances) : Prop where
  received : Received V c.frame r c.decl
  lt : c.frame.index < s.frames.size
  self : (s.frame c.frame).bindings.find? selfName = some (.instanceRef r)

/-- All functions that are initializers know their receivers, and among the methods of a class it is
the name that makes the initializer. -/
structure Prepared (V : Moment → Prop) (s : Store) : Prop where
  functions : ∀ c ∈ s.functions, c.isInitializer = true → ∃ r, BoundTo V s c r
  methods : ∀ k ∈ s.classes, ∀ p ∈ k.methods, p.2.isInitializer = decide (p.1 = initializerName)

variable {V V' : Moment → Prop} {s s' : Store} {c : Closure} {r : Ref .instances}

theorem BoundTo.grows (h : BoundTo V s c r) (hs : s.Grows s') : BoundTo V s' c r :=
  ⟨h.received, Nat.lt_of_lt_of_le h.lt hs.size, (hs.receiver _ h.lt).trans h.self⟩

theorem BoundTo.mono (hV : ∀ M, V M → V' M) (h : BoundTo V s c r) : BoundTo V' s c r := by
  obtain ⟨M, c', hM, hreceives, hdecl⟩ := h.received
  exact ⟨⟨M, c', hV M hM, hreceives, hdecl⟩, h.lt, h.self⟩

theorem Prepared.mono (hV : ∀ M, V M → V' M) (h : Prepared V s) : Prepared V' s := by
  refine ⟨fun c hc hinit => ?_, h.methods⟩
  obtain ⟨r, hr⟩ := h.functions c hc hinit
  exact ⟨r, hr.mono hV⟩

theorem prepared_initial (V : Moment → Prop) : Prepared V .initial := by
  refine ⟨fun c hc => ?_, fun k hk => ?_⟩
  · simp [Store.initial] at hc
  · simp [Store.initial] at hk

/-- Functions and classes may have been added. -/
theorem Prepared.grows (h : Prepared V s) (hs : s.Grows s')
    (hfunctions : ∀ c ∈ s'.functions, c ∈ s.functions ∨
      (c.isInitializer = true → ∃ r, BoundTo V s' c r))
    (hclasses : ∀ k ∈ s'.classes, k ∈ s.classes ∨
      ∀ p ∈ k.methods, p.2.isInitializer = decide (p.1 = initializerName)) : Prepared V s' := by
  refine ⟨fun c hc hinit => ?_, fun k hk => ?_⟩
  · rcases hfunctions c hc with hc | hc
    · obtain ⟨r, hr⟩ := h.functions c hc hinit
      exact ⟨r, hr.grows hs⟩
    · exact hc hinit
  · rcases hclasses k hk with hk | hk
    · exact h.methods k hk
    · exact hk

/-- Nothing has happened to functions and classes. -/
theorem Prepared.of_grows (h : Prepared V s) (hs : s.Grows s')
    (hfunctions : s'.functions = s.functions) (hclasses : s'.classes = s.classes) :
    Prepared V s' :=
  h.grows hs (fun _ hc => .inl (hfunctions ▸ hc)) fun _ hk => .inl (hclasses ▸ hk)

/-- A function that there is not would be no initializer. -/
theorem Prepared.closure (h : Prepared V s) {f : Ref .functions}
    (hinit : (s.closure f).isInitializer = true) : ∃ r, BoundTo V s (s.closure f) r := by
  rcases closure_default_or_mem s f with hc | hc
  · rw [hc] at hinit
    cases hinit
  · exact h.functions _ hc hinit

theorem isInitializer_methodBindings {frame : Ref .frames} {methods : List FunctionDecl}
    {p : String × Closure} (h : p ∈ methodBindings frame methods) :
    p.2.isInitializer = decide (p.1 = initializerName) := by
  obtain ⟨decl, -, rfl⟩ := mem_methodBindings h
  rfl

/-- A method in the frame of its receiver. -/
theorem boundTo_bind {M : Moment} {method : Closure} (hM : V M)
    (hreceives : Receives M ⟨s.frames.size⟩ r method) :
    BoundTo V (s.addFrame method.frame [(selfName, .instanceRef r)]).2
      { method with frame := (s.addFrame method.frame [(selfName, .instanceRef r)]).1 } r := by
  refine ⟨⟨M, method, hM, hreceives, rfl⟩, ?_, ?_⟩
  · rw [Store.size_addFrame]
    exact Nat.lt_succ_self _
  · rw [Store.frame_addFrame_self]
    exact if_pos rfl

/-- `Prepares V m m'`: an evaluation that started in `m` may have come to `m'`. -/
structure Prepares (V : Moment → Prop) (m m' : Machine) : Prop where
  grows : m.store.Grows m'.store
  prepared : Prepared V m.store → Prepared V m'.store

theorem Prepares.withFrames {m : Machine} {s : Store} (hs : m.store.Grows s)
    (hfunctions : s.functions = m.store.functions) (hclasses : s.classes = m.store.classes) :
    Prepares V m { m with store := s } :=
  ⟨hs, fun h => h.of_grows hs hfunctions hclasses⟩

/-- **No action makes an initializer without a receiver.** Only the binding of a method makes
functions that are initializers. -/
theorem kept_prepares (V : Moment → Prop) : Kept (Prepares V)
    (fun role _ c => role = .function → c.isInitializer = false) (fun name => name ≠ selfName)
    (fun F r method => ∃ M, V M ∧ Receives M F r method) where
  refl m := ⟨.refl m.store, id⟩
  trans h h' := ⟨h.grows.trans h'.grows, h'.prepared ∘ h.prepared⟩
  host m _ := ⟨.refl m.store, id⟩
  define m r name v hname := .withFrames (.define m.store r hname v) rfl rfl
  putEntry _ _ _ _ := .withFrames (.of_frames rfl) rfl rfl
  setField _ _ _ _ := .withFrames (.of_frames rfl) rfl rfl
  addArray _ _ := .withFrames (.of_frames rfl) rfl rfl
  addInstance _ _ := .withFrames (.of_frames rfl) rfl rfl
  addFrame m around bindings := .withFrames (.addFrame m.store around bindings) rfl rfl
  lambda m c hc := by
    have hs : m.store.Grows (m.withFunction c).store := .of_frames rfl
    refine ⟨hs, fun h => h.grows hs (fun c' hc' => ?_) fun k hk => .inl hk⟩
    rcases Array.mem_push.mp hc' with hc' | rfl
    · exact .inl hc'
    · exact .inr fun hinit => absurd hinit (by simp [hc rfl])
  function m decl hname hdecl := by
    have hs := grows_functionDeclared m hname
    refine ⟨hs, fun h => h.grows hs (fun c' hc' => ?_) fun k hk => .inl hk⟩
    rcases Array.mem_push.mp hc' with hc' | rfl
    · exact .inl hc'
    · exact .inr nofun
  classDecl m name methods hname _ := by
    have hs := grows_classDeclared m hname methods
    refine ⟨hs, fun h => h.grows hs (fun c' hc' => .inl hc') fun k hk => ?_⟩
    rcases Array.mem_push.mp hk with hk | rfl
    · exact .inl hk
    · exact .inr fun p hp => isInitializer_methodBindings hp
  bound m k name method r hmethod hreceives := by
    obtain ⟨M, hM, hreceives⟩ := hreceives
    have hframe := Store.Grows.addFrame m.store method.frame [(selfName, .instanceRef r)]
    let s := (m.store.addFrame method.frame [(selfName, .instanceRef r)]).2
    have hadded : ∀ c, s.Grows (s.addFunction c).2 := fun c => .of_frames rfl
    refine ⟨hframe.trans (hadded _), fun h => ?_⟩
    -- the new function may be an initializer, and its receiver is in the new frame
    refine h.grows (hframe.trans (hadded _)) (fun c' hc' => ?_) fun k hk => .inl hk
    rcases Array.mem_push.mp hc' with hc' | rfl
    · exact .inl hc'
    · exact .inr fun _ => ⟨r, (boundTo_bind hM hreceives).grows (hadded _)⟩
  inside m around bindings m' hinside := by
    have hs := Store.Grows.addFrame m.store around bindings
    exact ⟨hs.trans hinside.grows, fun h => hinside.prepared (h.of_grows hs rfl rfl)⟩

/-! ### The moments of a run -/

/-- The functions in the store know their receivers, and so does the one that is called. -/
structure PreparedAt (V : Moment → Prop) (M : Moment) : Prop where
  store : Prepared V M.machine.store
  callee : ∀ c paren vs, M.task = .apply c paren vs → c.isInitializer = true →
    ∃ r, BoundTo V M.machine.store c r

theorem PreparedAt.mono (hV : ∀ M, V M → V' M) {M : Moment} (h : PreparedAt V M) :
    PreparedAt V' M := by
  refine ⟨h.store.mono hV, fun c paren vs htask hinit => ?_⟩
  obtain ⟨r, hr⟩ := h.callee c paren vs htask hinit
  exact ⟨r, hr.mono hV⟩

theorem not_isInitializer_of_makes {M : Moment} {m : Machine} {role : Role} {c : Closure}
    (h : Makes M m role c) (hrole : role = .function) : c.isInitializer = false := by
  cases h with
  | lambda | function => rfl
  | method => cases hrole

theorem PreparedAt.leads {M' M : Moment} (h : PreparedAt V M) (hM : V M)
    (hleads : Leads (Prepares V) M' M) : PreparedAt V M' := by
  have hframe := fun (s : Store) around bindings => Store.Grows.addFrame s around bindings
  cases hleads with
  | part hpart hR =>
    refine ⟨hR.prepared h.store, ?_⟩
    rintro c paren vs rfl
    exact absurd hpart (apply_not_mem_parts _ c paren vs)
  | others _ hR | call hR => exact ⟨hR.prepared h.store, by rintro _ _ _ ⟨⟩⟩
  | block => exact ⟨h.store.of_grows (hframe _ _ _) rfl rfl, by rintro _ _ _ ⟨⟩⟩
  | step hR =>
    exact ⟨(hR.prepared h.store).of_grows (hframe _ _ _) rfl rfl, by rintro _ _ _ ⟨⟩⟩
  | callFunction _ =>
    -- a function that is called comes from the store
    refine ⟨h.store, fun c paren vs htask hinit => ?_⟩
    cases htask
    exact h.store.closure hinit
  | @callInitializer n m k paren vs initializer hmethod harity =>
    -- an initializer that a class calls has never been in the store, but was bound just before
    have hadded : m.store.Grows (m.withInstance k).store := .of_frames rfl
    refine ⟨(h.store.of_grows hadded rfl rfl).of_grows (hframe _ _ _) rfl rfl,
      fun c paren vs htask _ => ?_⟩
    cases htask
    exact ⟨_, boundTo_bind (s := (m.withInstance k).store) hM (.construction hmethod harity)⟩
  | body => exact ⟨h.store.of_grows (hframe _ _ _) rfl rfl, by rintro _ _ _ ⟨⟩⟩

/-- **Initializers that are called know their receivers**, to the end of a run and at every moment
of it, if nothing binds the name of the receiver meanwhile. -/
theorem prepared_run {m : Machine} (h : Prepared V m.store) {fuel : Nat} {program : List Stmt}
    (hreached : ∀ M, Reached fuel program m M → V M)
    (hnames : ∀ M, V M → ∀ name ∈ M.task.binds, name ≠ selfName) :
    Prepared V (final (execProgram fuel program) m).store ∧
      ∀ M, Reached fuel program m M → PreparedAt V M := by
  let Pre := fun M => PreparedAt V M ∧ Reached fuel program m M
  have hrun : Prepares V m (final (execProgram fuel program) m) ∧
      ∀ M, Reached fuel program m M → Pre M := by
    refine (kept_prepares V).reached (fun {M} hM => ?_) (fun {M' M} hM hwithin hleads => ?_)
      fun s _ m' hm' hs => ⟨⟨hm'.prepared h, by rintro _ _ _ ⟨⟩⟩, hs⟩
    · have hV := hreached M hM.2
      exact ⟨not_isInitializer_of_makes, hnames M hV, fun hreceives => ⟨M, hV, hreceives⟩⟩
    · exact ⟨hM.1.leads (hreached M hM.2) hleads, hM.2.within hwithin⟩
  exact ⟨hrun.1.prepared h, fun M hM => (hrun.2 M hM).1⟩

/-- An initializer gives its receiver, however its body ends, and finds it in its frame then. -/
theorem callResult_boundTo {m : Machine} (hinit : c.isInitializer = true)
    (hc : BoundTo V m.store c r) (paren : Token) (flow : Flow) :
    m.store.lookupAt? c.frame 0 selfName = some (.instanceRef r) ∧
      callResult c paren flow m = .ok (.instanceRef r) m := by
  have hself : m.store.lookupAt? c.frame 0 selfName = some (.instanceRef r) := hc.self
  refine ⟨hself, ?_⟩
  simp only [callResult, hinit, if_true, withStore, Bind.bind, EStateM.bind, hself]
  rfl

end Machine

end Roteiro
