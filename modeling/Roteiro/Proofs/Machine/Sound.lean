import Roteiro.Proofs.Machine.Frames

/-!
# References lead to frames

A reference is a number, and nothing in a number says that there is a frame under it. In the
machines that there are, every reference that a lookup may follow does lead to a frame: the present
frame and the frames of all functions and methods are there, and so are the frames around them. Such
machines are *sound*. It does not matter what is run, so this holds before the analysis of scopes
has had its say.

* `Machine.kept_sound`: no action makes a sound machine unsound, or changes what is around a frame.
* `Machine.Sound.run`: a run of a sound machine stays in sound machines.
-/

namespace Roteiro

namespace Store

/-- The frame is there, and so are the frames around it. -/
inductive Anchored (s : Store) : Ref .frames → Prop
  | mk {r : Ref .frames} (hlt : r.index < s.frames.size)
    (houter : ∀ q ∈ (s.frame r).outer, Anchored s q) : Anchored s r

/-- All frames that functions and methods were made in are there. -/
structure Sound (s : Store) : Prop where
  globals : s.Anchored globals
  functions : ∀ c ∈ s.functions, s.Anchored c.frame
  methods : ∀ k ∈ s.classes, ∀ p ∈ k.methods, s.Anchored p.2.frame

/-- Frames are never taken away, and the frames around them never change. -/
structure Extends (s s' : Store) : Prop where
  size : s.frames.size ≤ s'.frames.size
  outer : ∀ r : Ref .frames, r.index < s.frames.size → (s'.frame r).outer = (s.frame r).outer

variable {s s' s'' : Store}

theorem Extends.of_frames (h : s'.frames = s.frames) : s.Extends s' :=
  ⟨Nat.le_of_eq (by rw [h]), fun r _ => by rw [frame, frame, h]⟩

theorem Extends.trans (h : s.Extends s') (h' : s'.Extends s'') : s.Extends s'' :=
  ⟨Nat.le_trans h.size h'.size, fun r hr =>
    (h'.outer r (Nat.lt_of_lt_of_le hr h.size)).trans (h.outer r hr)⟩

theorem extends_define (s : Store) (r : Ref .frames) (name : String) (v : Value) :
    s.Extends (s.define r name v) :=
  ⟨Nat.le_of_eq (size_define s r name v).symm, fun q _ => outer_define s r q name v⟩

theorem extends_addFrame (s : Store) (around : Ref .frames) (bindings : Bindings Value) :
    s.Extends (s.addFrame around bindings).2 := by
  have hgrows := Grows.addFrame s around bindings
  exact ⟨hgrows.size, hgrows.outer⟩

theorem Anchored.lt {r : Ref .frames} (h : s.Anchored r) : r.index < s.frames.size := by
  cases h with
  | mk hlt _ => exact hlt

theorem Anchored.outer {r q : Ref .frames} (h : s.Anchored r) (hq : q ∈ (s.frame r).outer) :
    s.Anchored q := by
  cases h with
  | mk _ houter => exact houter q hq

theorem Anchored.of_extends {r : Ref .frames} (h : s.Anchored r) (hs : s.Extends s') :
    s'.Anchored r := by
  induction h with
  | mk hlt _ ih =>
    refine .mk (Nat.lt_of_lt_of_le hlt hs.size) fun q hq => ?_
    rw [hs.outer _ hlt] at hq
    exact ih q hq

/-- A frame that is opened inside a frame which is there. -/
theorem anchored_addFrame {around : Ref .frames} (h : s.Anchored around)
    (bindings : Bindings Value) :
    (s.addFrame around bindings).2.Anchored (s.addFrame around bindings).1 := by
  refine .mk (by simp [addFrame]) fun q hq => ?_
  rw [frame_addFrame_self] at hq
  have hmem : s.Anchored q := by
    rcases List.mem_cons.mp hq with rfl | hq
    · exact h
    · exact h.outer hq
  exact hmem.of_extends (extends_addFrame s around bindings)

namespace Sound

/-- Functions and classes may have been added. -/
theorem of_extends (h : s.Sound) (hs : s.Extends s')
    (hfunctions : ∀ c ∈ s'.functions, c ∈ s.functions ∨ s'.Anchored c.frame)
    (hmethods : ∀ k ∈ s'.classes, k ∈ s.classes ∨ ∀ p ∈ k.methods, s'.Anchored p.2.frame) :
    s'.Sound := by
  refine ⟨h.globals.of_extends hs, fun c hc => ?_, fun k hk => ?_⟩
  · rcases hfunctions c hc with hc | hc
    · exact (h.functions c hc).of_extends hs
    · exact hc
  · rcases hmethods k hk with hk | hk
    · exact fun p hp => (h.methods k hk p hp).of_extends hs
    · exact hk

/-- Nothing has happened to functions and classes. -/
theorem withFrames (h : s.Sound) (hs : s.Extends s') (hfunctions : s'.functions = s.functions)
    (hclasses : s'.classes = s.classes) : s'.Sound :=
  h.of_extends hs (fun _ hc => .inl (hfunctions ▸ hc)) fun _ hk => .inl (hclasses ▸ hk)

theorem addFunction (h : s.Sound) {c : Closure} (hc : s.Anchored c.frame) :
    (s.addFunction c).2.Sound := by
  have hs : s.Extends (s.addFunction c).2 := .of_frames rfl
  refine h.of_extends hs (fun c' hc' => ?_) fun k hk => .inl hk
  rcases Array.mem_push.mp hc' with hc' | rfl
  · exact .inl hc'
  · exact .inr (hc.of_extends hs)

/-- A function that there is not would lie among the globals. -/
theorem closure (h : s.Sound) (f : Ref .functions) : s.Anchored (s.closure f).frame := by
  rcases Machine.closure_default_or_mem s f with hc | hc
  · rw [hc]
    exact h.globals
  · exact h.functions _ hc

theorem method_of_mem (h : s.Sound) {k : Ref .classes} {p : String × Closure}
    (hp : p ∈ (s.classInfo k).methods) : s.Anchored p.2.frame := by
  obtain ⟨info, hinfo, hp⟩ := Machine.class_of_mem_methods hp
  exact h.methods info (Array.mem_of_getElem? hinfo) p hp

theorem method (h : s.Sound) {k : Ref .classes} {name : String} {method : Closure}
    (hmethod : (s.classInfo k).methods.find? name = some method) : s.Anchored method.frame :=
  h.method_of_mem (Machine.mem_of_find? hmethod)

theorem initial : Store.initial.Sound := by
  refine ⟨.mk (by decide) fun q hq => ?_, fun c hc => ?_, fun k hk => ?_⟩
  · exact absurd hq List.not_mem_nil
  · simp [Store.initial] at hc
  · simp [Store.initial] at hk

end Sound

end Store

namespace Machine

/-- All references that a lookup may follow lead to frames. -/
structure Sound (m : Machine) : Prop where
  store : m.store.Sound
  current : m.store.Anchored m.current

/-- `KeepsSound m m'`: an evaluation that started in `m` may have come to `m'`. -/
structure KeepsSound (m m' : Machine) : Prop where
  current : m'.current = m.current
  store : m.store.Extends m'.store
  sound : m.store.Sound → m'.store.Sound

theorem KeepsSound.machine {m m' : Machine} (h : KeepsSound m m') (hm : m.Sound) : m'.Sound := by
  refine ⟨h.sound hm.store, ?_⟩
  rw [h.current]
  exact hm.current.of_extends h.store

/-- Functions and classes stay what they are when only frames, arrays or instances change. -/
theorem KeepsSound.withFrames {m : Machine} {s : Store} (hs : m.store.Extends s)
    (hfunctions : s.functions = m.store.functions) (hclasses : s.classes = m.store.classes) :
    KeepsSound m { m with store := s } :=
  ⟨rfl, hs, fun h => h.withFrames hs hfunctions hclasses⟩

/-- No action takes a frame away or changes what is around it. -/
theorem kept_extends : Kept (fun m m' => m.store.Extends m'.store) (fun _ _ _ => True)
    (fun _ => True) fun _ _ _ => True where
  refl _ := .of_frames rfl
  trans h h' := h.trans h'
  host _ _ := .of_frames rfl
  define m r name v _ := Store.extends_define m.store r name v
  putEntry _ _ _ _ := .of_frames rfl
  setField _ _ _ _ := .of_frames rfl
  addArray _ _ := .of_frames rfl
  addInstance _ _ := .of_frames rfl
  addFrame m around bindings := Store.extends_addFrame m.store around bindings
  lambda _ _ _ := .of_frames rfl
  function m decl _ _ := by
    have hadded : m.store.Extends (m.withFunction ⟨decl, m.current, false⟩).store := .of_frames rfl
    exact hadded.trans (Store.extends_define _ _ _ _)
  classDecl m name methods _ _ := by
    have hadded : m.store.Extends
        (m.store.addClass ⟨name.lexeme, methodBindings m.current methods⟩).2 := .of_frames rfl
    exact hadded.trans (Store.extends_define _ _ _ _)
  bound m _ _ method receiver _ _ :=
    (Store.extends_addFrame m.store method.frame [(selfName, .instanceRef receiver)]).trans
      (.of_frames rfl)
  inside m around bindings _ hinside :=
    (Store.extends_addFrame m.store around bindings).trans hinside

/-- **No action makes a machine unsound.** -/
theorem kept_sound : Kept KeepsSound (fun _ m c => m.store.Anchored c.frame) (fun _ => True)
    fun _ _ _ => True where
  refl m := ⟨rfl, kept_extends.refl m, id⟩
  trans h h' := ⟨h'.current.trans h.current, h.store.trans h'.store, h'.sound ∘ h.sound⟩
  host m host := ⟨rfl, kept_extends.host m host, id⟩
  define m r name v hname := .withFrames (kept_extends.define m r name v hname) rfl rfl
  putEntry m a key v := .withFrames (kept_extends.putEntry m a key v) rfl rfl
  setField m i name v := .withFrames (kept_extends.setField m i name v) rfl rfl
  addArray m values := .withFrames (kept_extends.addArray m values) rfl rfl
  addInstance m k := .withFrames (kept_extends.addInstance m k) rfl rfl
  addFrame m around bindings := .withFrames (kept_extends.addFrame m around bindings) rfl rfl
  lambda m c hc :=
    ⟨rfl, .of_frames rfl, fun h => h.addFunction (hc.of_extends (.of_frames rfl))⟩
  function m decl hname hdecl := by
    -- the only function that was not there before is the one that is declared
    have hs := kept_extends.function m decl hname trivial
    refine ⟨rfl, hs, fun h => h.of_extends hs (fun c hc => ?_) fun k hk => .inl hk⟩
    rcases Array.mem_push.mp hc with hc | rfl
    · exact .inl hc
    · exact .inr hdecl
  classDecl m name methods hname hmethods := by
    have hs := kept_extends.classDecl m name methods hname fun _ _ => trivial
    refine ⟨rfl, hs, fun h => h.of_extends hs (fun c hc => .inl hc) fun k hk => ?_⟩
    rcases Array.mem_push.mp hk with hk | rfl
    · exact .inl hk
    · exact .inr hmethods
  bound m k name method receiver hmethod hreceiver := by
    have hs := Store.extends_addFrame m.store method.frame [(selfName, .instanceRef receiver)]
    refine ⟨rfl, kept_extends.bound m k name method receiver hmethod hreceiver, fun h => ?_⟩
    exact (h.withFrames hs rfl rfl).addFunction (Store.anchored_addFrame (h.method hmethod) _)
  inside m around bindings m' hinside := by
    have hs := Store.extends_addFrame m.store around bindings
    exact ⟨rfl, hs.trans hinside.store, fun h => hinside.sound (h.withFrames hs rfl rfl)⟩

theorem Sound.enter {m : Machine} (h : m.Sound) {around : Ref .frames}
    (haround : m.store.Anchored around) (bindings : Bindings Value) :
    (m.enter around bindings).Sound := by
  have hs := Store.extends_addFrame m.store around bindings
  exact ⟨h.store.withFrames hs rfl rfl, Store.anchored_addFrame haround bindings⟩

/-- The machine is sound, and so is the function that is called. -/
structure SoundAt (M : Moment) : Prop where
  machine : M.machine.Sound
  callee : ∀ c paren vs, M.task = .apply c paren vs → M.machine.store.Anchored c.frame

theorem SoundAt.makes {M : Moment} {m : Machine} {role : Role} {c : Closure} (h : SoundAt M)
    (hmakes : Makes M m role c) : m.store.Anchored c.frame := by
  cases hmakes with
  | @lambda n m decl =>
    exact h.machine.current.of_extends (kept_extends.lambda m ⟨decl, m.current, false⟩ trivial)
  | function => exact h.machine.current.of_extends (kept_extends.function _ _ trivial trivial)
  | method _ =>
    exact h.machine.current.of_extends (kept_extends.classDecl _ _ _ trivial fun _ _ => trivial)

theorem SoundAt.leads {M' M : Moment} (h : SoundAt M) (hleads : Leads KeepsSound M' M) :
    SoundAt M' := by
  have hkept : ∀ {m'}, KeepsSound M.machine m' → m'.Sound := fun hR => hR.machine h.machine
  cases hleads with
  | part hpart hR =>
    -- what is called is no part of the code
    refine ⟨hkept hR, ?_⟩
    rintro c paren vs rfl
    exact absurd hpart (apply_not_mem_parts _ c paren vs)
  | others _ hR => exact ⟨hkept hR, by rintro _ _ _ ⟨⟩⟩
  | block => exact ⟨h.machine.enter h.machine.current [], by rintro _ _ _ ⟨⟩⟩
  | step hR => exact ⟨(hkept hR).enter (hkept hR).current [], by rintro _ _ _ ⟨⟩⟩
  | call hR => exact ⟨hkept hR, by rintro _ _ _ ⟨⟩⟩
  | callFunction _ =>
    refine ⟨h.machine, fun c paren vs heq => ?_⟩
    cases heq
    exact h.machine.store.closure _
  | @callInitializer n m k paren vs initializer hmethod _ =>
    -- the method is bound in a frame of its own, around which is the frame it was made in
    have hinitializer : m.store.Anchored initializer.frame := h.machine.store.method hmethod
    have hadded : (m.withInstance k).Sound := (kept_sound.addInstance m k).machine h.machine
    refine ⟨?_, fun c paren vs heq => ?_⟩
    · exact (kept_sound.addFrame (m.withInstance k) initializer.frame _).machine hadded
    · cases heq
      have hkept : m.store.Extends (m.withInstance k).store := .of_frames rfl
      exact Store.anchored_addFrame (hinitializer.of_extends hkept) _
  | body => exact ⟨h.machine.enter (h.callee _ _ _ rfl) _, by rintro _ _ _ ⟨⟩⟩

/-- A sound machine is sound at the end of a run, and every evaluation in the run starts in a sound
machine, with a sound function if it is a call. -/
theorem Sound.program {m : Machine} (h : m.Sound) (fuel : Nat) (program : List Stmt) :
    (final (execProgram fuel program) m).Sound ∧
      ∀ M, Reached fuel program m M → SoundAt M := by
  obtain ⟨hend, hreached⟩ := kept_sound.program
    SoundAt.makes (fun hM _ => hM.leads) fun s _ m' hm' => ⟨hm'.machine h, by rintro _ _ _ ⟨⟩⟩
  exact ⟨hend.machine h, hreached⟩

/-- **A run stays in sound machines.** So does every evaluation inside of it. -/
theorem Sound.run {m : Machine} (h : m.Sound) (fuel : Nat) (program : List Stmt) :
    (final (execProgram fuel program) m).Sound ∧
      ∀ M, Reached fuel program m M → M.machine.Sound :=
  ⟨(h.program fuel program).1, fun M hM => ((h.program fuel program).2 M hM).machine⟩

/-- What an evaluation in a sound machine keeps. -/
theorem SoundAt.keeps {M : Moment} (h : SoundAt M) : KeepsSound M.machine M.final :=
  (kept_sound.everywhere
    (fun hM => ⟨hM.makes, fun _ _ => trivial, fun _ => trivial⟩) (fun hM _ => hM.leads) h).1

end Machine

end Roteiro
