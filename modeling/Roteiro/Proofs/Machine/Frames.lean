import Roteiro.Proofs.Machine.Kept
import Roteiro.Proofs.Scope.Placed

/-!
# Frames fit scopes

While a program runs, the frames along the path from the present one stand for the scopes around the
piece of code that is being run, one frame for each scope, and the globals behind them. `Fits` says
so: each frame was opened for its scope, and binds the names that are complete there. The frame of a
receiver holds the instance that its method was looked up on.

The store keeps paths for later: a function knows the frame it was made in. `Housed` says that these
fit as well, so that a call finds the scopes around the body of the function again, however long
after the function was made and from wherever it is called.

* `kept_continues`: no action disturbs what fits.
* `inPlace_leads`: what is run inside of an evaluation is in its place, if the evaluation is.
-/

namespace Roteiro

open Scope

namespace Store

/-! ### Stores that grow -/

theorem frame_addFrame_self (s : Store) (around : Ref .frames) (bindings : Bindings Value) :
    (s.addFrame around bindings).2.frame (s.addFrame around bindings).1 =
      ⟨bindings, s.path around⟩ := by
  simp [addFrame, frame, path]

theorem frame_addFrame {s : Store} {r : Ref .frames} (h : r.index < s.frames.size)
    (around : Ref .frames) (bindings : Bindings Value) :
    (s.addFrame around bindings).2.frame r = s.frame r := by
  simp [addFrame, frame, Array.getD_eq_getD_getElem?, Array.getElem?_push, Nat.ne_of_lt h]

theorem frame_define_self {s : Store} {r : Ref .frames} (h : r.index < s.frames.size)
    (name : String) (v : Value) :
    (s.define r name v).frame r =
      { s.frame r with bindings := (s.frame r).bindings.insert name v } := by
  simp only [define, frame, Array.getD_eq_getD_getElem?, Array.getElem?_modify, if_true,
    Array.getElem?_eq_getElem h, Option.map_some, Option.getD_some]

theorem frame_define_of_ne (s : Store) {r q : Ref .frames} (h : q ≠ r) (name : String)
    (v : Value) : (s.define r name v).frame q = s.frame q := by
  have hindex : r.index ≠ q.index := fun heq => h (congrArg Ref.mk heq.symm)
  simp [define, frame, Array.getD_eq_getD_getElem?, Array.getElem?_modify, hindex]

theorem outer_define (s : Store) (r r' : Ref .frames) (name : String) (v : Value) :
    ((s.define r name v).frame r').outer = (s.frame r').outer := by
  simp only [define, frame, Array.getD_eq_getD_getElem?, Array.getElem?_modify]
  split
  · cases s.frames[r'.index]? <;> rfl
  · rfl

theorem bindsAt_define (s : Store) (r : Ref .frames) {r' : Ref .frames} (name : String) (v : Value)
    {x : String} (h : s.bindsAt x r' = true) : (s.define r name v).bindsAt x r' = true := by
  simp only [define, bindsAt, frame, Array.getD_eq_getD_getElem?, Array.getElem?_modify] at h ⊢
  split
  · cases hr : s.frames[r'.index]? with
    | none => simpa [hr] using h
    | some f =>
      simp only [hr, Option.getD_some, Option.map_some] at h ⊢
      rw [binds_insert, h, Bool.or_true]
  · exact h

theorem bindsAt_define_self {s : Store} {r : Ref .frames} (h : r.index < s.frames.size)
    (name : String) (v : Value) : (s.define r name v).bindsAt name r = true := by
  simp only [define, bindsAt, frame, Array.getD_eq_getD_getElem?, Array.getElem?_modify, if_true,
    Array.getElem?_eq_getElem h, Option.map_some, Option.getD_some]
  rw [binds_insert, decide_eq_true rfl, Bool.true_or]

theorem find?_define_of_ne (s : Store) (r r' : Ref .frames) {name x : String} (h : x ≠ name)
    (v : Value) : ((s.define r name v).frame r').bindings.find? x =
      (s.frame r').bindings.find? x := by
  simp only [define, frame, Array.getD_eq_getD_getElem?, Array.getElem?_modify]
  split
  · cases s.frames[r'.index]? with
    | none => rfl
    | some f => exact Bindings.find?_insert_of_ne h v f.bindings
  · rfl

theorem size_define (s : Store) (r : Ref .frames) (name : String) (v : Value) :
    (s.define r name v).frames.size = s.frames.size := by
  simp [define]

theorem size_addFrame (s : Store) (around : Ref .frames) (bindings : Bindings Value) :
    (s.addFrame around bindings).2.frames.size = s.frames.size + 1 := by
  simp [addFrame]

/-- Frames are never taken away, never moved, never lose a name, and keep their receiver. -/
structure Grows (s s' : Store) : Prop where
  size : s.frames.size ≤ s'.frames.size
  outer : ∀ r : Ref .frames, r.index < s.frames.size → (s'.frame r).outer = (s.frame r).outer
  binds : ∀ (r : Ref .frames) name, r.index < s.frames.size → s.bindsAt name r = true →
    s'.bindsAt name r = true
  receiver : ∀ r : Ref .frames, r.index < s.frames.size →
    (s'.frame r).bindings.find? selfName = (s.frame r).bindings.find? selfName

namespace Grows

theorem of_frames {s s' : Store} (h : s'.frames = s.frames) : Grows s s' := by
  have hframe : ∀ r, s'.frame r = s.frame r := fun r => by rw [frame, frame, h]
  refine ⟨Nat.le_of_eq (by rw [h]), fun r _ => by rw [hframe], fun r name _ hr => ?_,
    fun r _ => by rw [hframe]⟩
  rwa [bindsAt, hframe]

theorem refl (s : Store) : Grows s s := of_frames rfl

theorem trans {s s' s'' : Store} (h : Grows s s') (h' : Grows s' s'') : Grows s s'' := by
  have hlt : ∀ {r : Ref .frames}, r.index < s.frames.size → r.index < s'.frames.size :=
    fun hr => Nat.lt_of_lt_of_le hr h.size
  exact ⟨Nat.le_trans h.size h'.size,
    fun r hr => (h'.outer r (hlt hr)).trans (h.outer r hr),
    fun r name hr hbinds => h'.binds r name (hlt hr) (h.binds r name hr hbinds),
    fun r hr => (h'.receiver r (hlt hr)).trans (h.receiver r hr)⟩

theorem define (s : Store) (r : Ref .frames) {name : String} (hname : name ≠ selfName) (v : Value) :
    Grows s (s.define r name v) :=
  ⟨Nat.le_of_eq (size_define s r name v).symm, fun r' _ => outer_define s r r' name v,
    fun _ _ _ h => bindsAt_define s r name v h,
    fun r' _ => find?_define_of_ne s r r' (Ne.symm hname) v⟩

theorem addFrame (s : Store) (around : Ref .frames) (bindings : Bindings Value) :
    Grows s (s.addFrame around bindings).2 := by
  refine ⟨?_, fun r hr => ?_, fun r name hr hbinds => ?_, fun r hr => ?_⟩
  · rw [size_addFrame]
    exact Nat.le_succ _
  · rw [frame_addFrame hr]
  · rwa [bindsAt, frame_addFrame hr]
  · rw [frame_addFrame hr]

/-- A path stays what it is. -/
theorem path {s s' : Store} (h : Grows s s') {r : Ref .frames} (hr : r.index < s.frames.size) :
    s'.path r = s.path r := by
  rw [Store.path, Store.path, h.outer r hr]

end Grows

end Store

namespace Machine

theorem grows_functionDeclared (m : Machine) {decl : FunctionDecl} (h : decl.displayName ≠ selfName) :
    m.store.Grows (m.functionDeclared decl).store := by
  have hadded : m.store.Grows (m.withFunction ⟨decl, m.current, false⟩).store := .of_frames rfl
  exact hadded.trans (.define _ _ h _)

theorem grows_classDeclared (m : Machine) {name : Token} (h : name.lexeme ≠ selfName)
    (methods : List FunctionDecl) : m.store.Grows (m.classDeclared name methods).store := by
  have hadded : m.store.Grows
      (m.store.addClass ⟨name.lexeme, methodBindings m.current methods⟩).2 := .of_frames rfl
  exact hadded.trans (.define _ _ h _)

/-! ### Frames and scopes -/

/-- `Opens M F S`: the evaluation `M` itself opens the new frame `F`, for the scope `S`: a block, a
function that is called, the receiver of a method, or the step of a loop. -/
inductive Opens : Moment → Ref .frames → Site → Prop
  | block {n m body} : Opens ⟨n + 1, .exec (.block body), m⟩ ⟨m.store.frames.size⟩ (.block body)
  | call {n m c paren vs} : Opens ⟨n + 1, .apply c paren vs, m⟩ ⟨m.store.frames.size⟩ (.call c.decl)
  | receiver {M F r method} (h : Receives M F r method) : Opens M F (.receiver method.decl)
  | step {n m test body s v m₁ m₂} (htest : eval n test m = .ok v m₁) (hv : v.truthy = true)
      (hbody : exec n body m₁ = .ok .nextIteration m₂) :
      Opens ⟨n + 1, .execLoop test body (some s), m⟩ ⟨m₂.store.frames.size⟩ (.block [s])

/-- One of the moments in `V` opened the frame for the scope. -/
def Opened (V : Moment → Prop) (F : Ref .frames) (S : Site) : Prop :=
  ∃ M, V M ∧ Opens M F S

/-- One of the moments in `V` looked up the method on the instance and put the instance into the
frame. -/
def Received (V : Moment → Prop) (F : Ref .frames) (r : Ref .instances) (method : FunctionDecl) :
    Prop :=
  ∃ M c, V M ∧ Receives M F r c ∧ c.decl = method

/-- The frames along a path stand for the scopes, innermost first, and the globals are behind
them. -/
inductive Fits (V : Moment → Prop) (s : Store) : List (Ref .frames) → List Layer → Prop
  | globals (h : Store.globals.index < s.frames.size) : Fits V s [Store.globals] []
  | inside {F : Ref .frames} {path : List (Ref .frames)} {L : Layer} {Γ : List Layer}
      (hlt : F.index < s.frames.size) (hne : F ≠ Store.globals)
      (hopened : ∀ S, L.site? = some S → Opened V F S)
      (hbinds : ∀ x, L.names.find? x = some .defined → s.bindsAt x F = true)
      (hreceived : ∀ f, L.site? = some (.receiver f) → ∃ r, Received V F r f ∧
        (s.frame F).bindings.find? selfName = some (.instanceRef r))
      (hpath : Fits V s path Γ) : Fits V s (F :: path) (L :: Γ)

variable {V V' : Moment → Prop} {P P' : Nat → List Layer → String → Prop} {s s' : Store}
  {path : List (Ref .frames)} {Γ : List Layer}

theorem Fits.grows (h : Fits V s path Γ) (hgrows : s.Grows s') : Fits V s' path Γ := by
  induction h with
  | globals h => exact .globals (Nat.lt_of_lt_of_le h hgrows.size)
  | inside hlt hne hopened hbinds hreceived _ ih =>
    refine .inside (Nat.lt_of_lt_of_le hlt hgrows.size) hne hopened
      (fun x hx => hgrows.binds _ x hlt (hbinds x hx)) (fun f hf => ?_) ih
    obtain ⟨r, hr, hself⟩ := hreceived f hf
    exact ⟨r, hr, (hgrows.receiver _ hlt).trans hself⟩

/-- What fits goes on to fit when more moments are known. -/
theorem Fits.mono (hV : ∀ M, V M → V' M) (h : Fits V s path Γ) : Fits V' s path Γ := by
  induction h with
  | globals h => exact .globals h
  | inside hlt hne hopened hbinds hreceived _ ih =>
    refine .inside hlt hne (fun S hS => ?_) hbinds (fun f hf => ?_) ih
    · obtain ⟨M, hM, hopens⟩ := hopened S hS
      exact ⟨M, hV M hM, hopens⟩
    · obtain ⟨r, ⟨M, c, hM, hreceives⟩, hself⟩ := hreceived f hf
      exact ⟨r, ⟨M, c, hV M hM, hreceives⟩, hself⟩

/-- The frame for a scope, at the same place along the path. -/
theorem Fits.frame (h : Fits V s path Γ) {d : Nat} {L : Layer} (hL : Γ[d]? = some L) :
    ∃ F, path[d]? = some F ∧ F ≠ Store.globals ∧ (∀ S, L.site? = some S → Opened V F S) ∧
      (∀ x, L.names.find? x = some .defined → s.bindsAt x F = true) ∧
      ∀ f, L.site? = some (.receiver f) → ∃ r, Received V F r f ∧
        (s.frame F).bindings.find? selfName = some (.instanceRef r) := by
  induction h generalizing d with
  | globals h => cases hL
  | @inside F path L' Γ hlt hne hopened hbinds hreceived _ ih =>
    cases d with
    | zero =>
      cases hL
      exact ⟨F, rfl, hne, hopened, hbinds, hreceived⟩
    | succ d => exact ih hL

theorem Fits.lt_size {r : Ref .frames} {outer : List (Ref .frames)} (h : Fits V s (r :: outer) Γ) :
    r.index < s.frames.size := by
  cases h with
  | globals h => exact h
  | inside hlt => exact hlt

/-- The path from a frame goes on to fit. -/
theorem Fits.path_grows {r : Ref .frames} (h : Fits V s (s.path r) Γ) (hgrows : s.Grows s') :
    Fits V s' (s'.path r) Γ := by
  rw [hgrows.path h.lt_size]
  exact h.grows hgrows

/-- The name of a variable is not complete while its initializer is evaluated. -/
theorem Fits.started (h : Fits V s path Γ) (name : Token) : Fits V s path (started Γ name) := by
  cases h with
  | globals h => exact .globals h
  | inside hlt hne hopened hbinds hreceived hpath =>
    refine .inside hlt hne hopened (fun x hx => ?_) hreceived hpath
    by_cases hname : x = name.lexeme
    · rw [hname, Bindings.find?_insert_self] at hx
      cases hx
    · rw [Bindings.find?_insert_of_ne hname] at hx
      exact hbinds x hx

theorem find?_withDefined_defined {scope : Bindings Stage} {names : List Token} {x : String}
    (h : (withDefined scope names).find? x = some .defined) :
    scope.find? x = some .defined ∨ x ∈ names.map Token.lexeme := by
  rw [stage_withDefined] at h
  split at h
  · next hx => exact .inr hx
  · exact .inl h

/-- Names that the present frame binds are complete. -/
theorem Fits.introduced {r : Ref .frames} {outer : List (Ref .frames)}
    (h : Fits V s (r :: outer) Γ) {names : List Token}
    (hnames : ∀ name ∈ names, s.bindsAt name.lexeme r = true) :
    Fits V s (r :: outer) (introduced Γ names) := by
  cases h with
  | globals h => exact .globals h
  | inside hlt hne hopened hbinds hreceived hpath =>
    refine .inside hlt hne hopened (fun x hx => ?_) hreceived hpath
    rcases find?_withDefined_defined hx with hx | hx
    · exact hbinds x hx
    · obtain ⟨name, hname, rfl⟩ := List.mem_map.mp hx
      exact hnames name hname

/-- A frame that is opened for a scope, with the names that are complete from the start. -/
theorem Fits.entered {m : Machine} {around : Ref .frames} {bindings : Bindings Value} {L : Layer}
    (h : Fits V m.store (m.store.path around) Γ)
    (hopened : ∀ S, L.site? = some S → Opened V (m.enter around bindings).current S)
    (hbinds : ∀ x, L.names.find? x = some .defined → bindings.binds x = true)
    (hreceived : ∀ f, L.site? = some (.receiver f) → ∃ r,
      Received V (m.enter around bindings).current r f ∧
        bindings.find? selfName = some (.instanceRef r)) :
    Fits V (m.enter around bindings).store
      ((m.enter around bindings).store.path (m.enter around bindings).current) (L :: Γ) := by
  have hsize : 0 < m.store.frames.size := Nat.lt_of_le_of_lt (Nat.zero_le _) h.lt_size
  have hpath : (m.enter around bindings).store.path (m.enter around bindings).current =
      (m.enter around bindings).current :: m.store.path around := by
    rw [Store.path, enter, Store.frame_addFrame_self]
  rw [hpath]
  refine .inside ?_ ?_ hopened (fun x hx => ?_) (fun f hf => ?_)
    (h.grows (.addFrame m.store around bindings))
  · simp [enter, Store.addFrame]
  · intro heq
    have hindex : m.store.frames.size = 0 := congrArg Ref.index heq
    omega
  · rw [Store.bindsAt, enter, Store.frame_addFrame_self]
    exact hbinds x hx
  · rw [enter, Store.frame_addFrame_self]
    exact hreceived f hf

/-! ### What the store keeps for later -/

/-- The path from the frame of a function fits the scopes around the function. -/
def HousedAs (V : Moment → Prop) (P : Nat → List Layer → String → Prop) :
    Role → Store → Closure → Prop
  | .function, s, c => ∃ Γ, c.decl.Placed P Γ ∧ Fits V s (s.path c.frame) Γ
  | .method, s, c => ∃ Γ, c.decl.Placed P (.receiver c.decl :: Γ) ∧ Fits V s (s.path c.frame) Γ

/-- All functions and methods are housed, and nothing is around the globals. -/
structure Housed (V : Moment → Prop) (P : Nat → List Layer → String → Prop) (s : Store) :
    Prop where
  functions : ∀ c ∈ s.functions, HousedAs V P .function s c
  methods : ∀ k ∈ s.classes, ∀ p ∈ k.methods, HousedAs V P .method s p.2
  globals : Fits V s (s.path Store.globals) []

theorem HousedAs.mono (hV : ∀ M, V M → V' M) (hP : ∀ id Γ name, P id Γ name → P' id Γ name)
    {role : Role} {c : Closure} (h : HousedAs V P role s c) : HousedAs V' P' role s c := by
  cases role with
  | function =>
    obtain ⟨Γ, hplaced, hfits⟩ := h
    exact ⟨Γ, FunctionDecl.Placed.mono hP _ hplaced, hfits.mono hV⟩
  | method =>
    obtain ⟨Γ, hplaced, hfits⟩ := h
    exact ⟨Γ, FunctionDecl.Placed.mono hP _ hplaced, hfits.mono hV⟩

theorem Housed.mono (hV : ∀ M, V M → V' M) (hP : ∀ id Γ name, P id Γ name → P' id Γ name)
    (h : Housed V P s) : Housed V' P' s :=
  ⟨fun c hc => (h.functions c hc).mono hV hP, fun k hk p hp => (h.methods k hk p hp).mono hV hP,
    h.globals.mono hV⟩

theorem HousedAs.grows {role : Role} {c : Closure} (h : HousedAs V P role s c)
    (hgrows : s.Grows s') : HousedAs V P role s' c := by
  cases role with
  | function =>
    obtain ⟨Γ, hplaced, hfits⟩ := h
    exact ⟨Γ, hplaced, hfits.path_grows hgrows⟩
  | method =>
    obtain ⟨Γ, hplaced, hfits⟩ := h
    exact ⟨Γ, hplaced, hfits.path_grows hgrows⟩

theorem Housed.grows (h : Housed V P s) (hgrows : s.Grows s')
    (hfunctions : ∀ c ∈ s'.functions, c ∈ s.functions ∨ HousedAs V P .function s' c)
    (hmethods : ∀ k ∈ s'.classes, k ∈ s.classes ∨ ∀ p ∈ k.methods, HousedAs V P .method s' p.2) :
    Housed V P s' := by
  refine ⟨fun c hc => ?_, fun k hk => ?_, h.globals.path_grows hgrows⟩
  · rcases hfunctions c hc with hc | hc
    · exact (h.functions c hc).grows hgrows
    · exact hc
  · rcases hmethods k hk with hk | hk
    · exact fun p hp => (h.methods k hk p hp).grows hgrows
    · exact hk

/-- Functions and classes stay what they are when only frames, arrays or instances change. -/
theorem Housed.of_grows (h : Housed V P s) (hgrows : s.Grows s')
    (hfunctions : s'.functions = s.functions) (hclasses : s'.classes = s.classes) :
    Housed V P s' :=
  h.grows hgrows (fun _ hc => .inl (hfunctions ▸ hc)) fun _ hk => .inl (hclasses ▸ hk)

theorem Housed.closure (h : Housed V P s) (f : Ref .functions) :
    HousedAs V P .function s (s.closure f) := by
  rcases closure_default_or_mem s f with hc | hc
  · rw [hc]
    exact ⟨[], ⟨nofun, trivial⟩, h.globals⟩
  · exact h.functions _ hc

theorem Housed.method_of_mem (h : Housed V P s) {k : Ref .classes} {p : String × Closure}
    (hp : p ∈ (s.classInfo k).methods) : HousedAs V P .method s p.2 := by
  obtain ⟨info, hinfo, hp⟩ := class_of_mem_methods hp
  exact h.methods info (Array.mem_of_getElem? hinfo) p hp

theorem Housed.method (h : Housed V P s) {k : Ref .classes} {name : String} {method : Closure}
    (hmethod : (s.classInfo k).methods.find? name = some method) :
    HousedAs V P .method s method :=
  h.method_of_mem (mem_of_find? hmethod)

/-- A method that knows its receiver is housed in the frame that holds the receiver. -/
theorem HousedAs.bind {M : Moment} {r : Ref .instances} {method : Closure}
    (h : HousedAs V P .method s method) (hM : V M) (hreceives : Receives M ⟨s.frames.size⟩ r method) :
    HousedAs V P .function (s.addFrame method.frame [(selfName, .instanceRef r)]).2
      { method with frame := (s.addFrame method.frame [(selfName, .instanceRef r)]).1 } := by
  obtain ⟨Γ, hplaced, hfits⟩ := h
  let m : Machine := ⟨s, Store.globals, ∅, .withInput []⟩
  have hself : ∀ x, (Layer.receiver method.decl).names.find? x = some .defined → selfName = x := by
    intro x hx
    by_cases h : selfName = x
    · exact h
    · simp [Layer.receiver, Bindings.find?, h] at hx
  refine ⟨.receiver method.decl :: Γ, hplaced, hfits.entered (m := m) (fun S hS => ?_)
    (fun x hx => ?_) fun f hf => ?_⟩
  · cases hS
    exact ⟨M, hM, .receiver hreceives⟩
  · simp [Bindings.binds, Bindings.find?, hself x hx]
  · cases hf
    exact ⟨r, ⟨M, method, hM, hreceives, rfl⟩, if_pos rfl⟩

/-- `Continues V P m m'`: an evaluation that started in `m` may have come to `m'`. -/
structure Continues (V : Moment → Prop) (P : Nat → List Layer → String → Prop) (m m' : Machine) :
    Prop where
  current : m'.current = m.current
  depths : m'.depths = m.depths
  grows : m.store.Grows m'.store
  housed : Housed V P m.store → Housed V P m'.store

/-- **No action disturbs what fits.** -/
theorem kept_continues : Kept (Continues V P) (fun role m c => HousedAs V P role m.store c)
    (fun name => name ≠ selfName) fun F r method => ∃ M, V M ∧ Receives M F r method where
  refl m := ⟨rfl, rfl, .refl _, id⟩
  trans h h' := ⟨h'.current.trans h.current, h'.depths.trans h.depths, h.grows.trans h'.grows,
    fun hs => h'.housed (h.housed hs)⟩
  host m host := ⟨rfl, rfl, .refl _, id⟩
  define m r name v hname :=
    have hgrows := Store.Grows.define m.store r hname v
    ⟨rfl, rfl, hgrows, fun h => h.of_grows hgrows rfl rfl⟩
  putEntry m a key v := ⟨rfl, rfl, .of_frames rfl, fun h => h.of_grows (.of_frames rfl) rfl rfl⟩
  setField m i name v := ⟨rfl, rfl, .of_frames rfl, fun h => h.of_grows (.of_frames rfl) rfl rfl⟩
  addArray m _ := ⟨rfl, rfl, .of_frames rfl, fun h => h.of_grows (.of_frames rfl) rfl rfl⟩
  addInstance m k := ⟨rfl, rfl, .of_frames rfl, fun h => h.of_grows (.of_frames rfl) rfl rfl⟩
  addFrame m around bindings :=
    have hgrows := Store.Grows.addFrame m.store around bindings
    ⟨rfl, rfl, hgrows, fun h => h.of_grows hgrows rfl rfl⟩
  lambda m c hc := by
    have hgrows : m.store.Grows (m.withFunction c).store := .of_frames rfl
    refine ⟨rfl, rfl, hgrows, fun h => h.grows hgrows (fun c' hc' => ?_) fun k hk => .inl hk⟩
    rcases Array.mem_push.mp hc' with hc' | rfl
    · exact .inl hc'
    · exact .inr hc
  function m decl hname hdecl := by
    have hgrows := grows_functionDeclared m hname
    refine ⟨rfl, rfl, hgrows, fun h => h.grows hgrows (fun c' hc' => ?_) fun k hk => .inl hk⟩
    rcases Array.mem_push.mp hc' with hc' | rfl
    · exact .inl hc'
    · exact .inr hdecl
  classDecl m name methods hname hmethods := by
    have hgrows := grows_classDeclared m hname methods
    refine ⟨rfl, rfl, hgrows, fun h => h.grows hgrows (fun c' hc' => .inl hc') fun k hk => ?_⟩
    rcases Array.mem_push.mp hk with hk | rfl
    · exact .inl hk
    · exact .inr hmethods
  bound m k name method r hmethod hreceives := by
    obtain ⟨M, hM, hreceives⟩ := hreceives
    let s := (m.store.addFrame method.frame [(selfName, .instanceRef r)]).2
    let c : Closure :=
      { method with frame := (m.store.addFrame method.frame [(selfName, .instanceRef r)]).1 }
    have hadded : s.Grows (s.addFunction c).2 := .of_frames rfl
    have hgrows :=
      (Store.Grows.addFrame m.store method.frame [(selfName, .instanceRef r)]).trans hadded
    refine ⟨rfl, rfl, hgrows, fun h => h.grows hgrows (fun c' hc' => ?_) fun k hk => .inl hk⟩
    rcases Array.mem_push.mp hc' with hc' | rfl
    · exact .inl hc'
    · exact .inr (((h.method hmethod).bind hM hreceives).grows hadded)
  inside m around bindings m' hinside := by
    have hgrows := Store.Grows.addFrame m.store around bindings
    exact ⟨rfl, hinside.depths, hgrows.trans hinside.grows,
      fun h => hinside.housed (h.of_grows hgrows rfl rfl)⟩

/-! ### Evaluations in their place -/

/-- The code of a task is in its place. -/
def Task.Placed (P : Nat → List Layer → String → Prop) : Task → List Layer → Prop
  | exec s, Γ => s.Placed P Γ
  | execAll ss, Γ => placedStmts P ss Γ
  | execLoop test body step, Γ => (Stmt.loop test body step).Placed P Γ
  | eval e, Γ => e.Placed P Γ
  | evalAll es, Γ => placedExprs P es Γ
  | call _ _ _, _ => True
  | apply _ _ _, _ => True

theorem Task.Placed.mono (hP : ∀ id Γ name, P id Γ name → P' id Γ name) {task : Task}
    (h : task.Placed P Γ) : task.Placed P' Γ := by
  cases task with
  | exec s => exact Stmt.Placed.mono hP s h
  | execAll ss => exact placedStmts_mono hP ss h
  | execLoop test body step => exact Stmt.Placed.mono hP _ h
  | eval e => exact Expr.Placed.mono hP e h
  | evalAll es => exact placedExprs_mono hP es h
  | call | apply => trivial

/-- The parts of a task other than an initializer have the same scopes around them. -/
theorem Task.Placed.part {task part : Task} (h : task.Placed P Γ) (hpart : part ∈ task.parts) :
    part.Placed P Γ ∨ ∃ name, part.Placed P (Scope.started Γ name) := by
  have hparts : (∀ part ∈ task.parts, part.Placed P Γ) ∨
      ∃ name e, task = .exec (.var name (some e)) := by
    cases task with
    | exec s =>
      cases s with
      | var name e? =>
        cases e? with
        | none => exact .inl fun part hpart => by cases hpart
        | some e => exact .inr ⟨name, e, rfl⟩
      | ifElse test yes no? =>
        cases no? with
        | none => exact .inl (by simpa [parts, Placed] using ⟨h.1, h.2.1⟩)
        | some no => exact .inl (by simpa [parts, Placed] using ⟨h.1, h.2.1.1, h.2.2.1⟩)
      | result keyword e? =>
        cases e? with
        | none => exact .inl fun part hpart => by cases hpart
        | some e => exact .inl (List.forall_mem_singleton.mpr h)
      | expression e | print e => exact .inl (List.forall_mem_singleton.mpr h)
      | loop test body step => exact .inl (List.forall_mem_singleton.mpr h)
      | block | exitLoop | nextIteration | function | classDecl =>
        exact .inl fun part hpart => by cases hpart
    | execAll ss =>
      cases ss with
      | nil => exact .inl fun part hpart => by cases hpart
      | cons s ss => exact .inl (by simpa [parts, Placed] using h.1)
    | execLoop test body step =>
      cases step with
      | none => exact .inl (by simpa [parts, Placed] using ⟨h.1, h.2.1, h⟩)
      | some s => exact .inl (by simpa [parts, Placed] using ⟨h.1, h.2.1.1, h⟩)
    | eval e =>
      cases e with
      | literal | var | self | lambda => exact .inl fun part hpart => by cases hpart
      | unary | group | array | get => exact .inl (List.forall_mem_singleton.mpr h)
      | assign => exact .inl (List.forall_mem_singleton.mpr h.2)
      | binary | logical | call | index | set | conditional | indexSet =>
        exact .inl (by simpa [parts, Placed, Expr.Placed] using h)
    | evalAll es =>
      cases es with
      | nil => exact .inl fun part hpart => by cases hpart
      | cons e es => exact .inl (by simpa [parts, Placed] using ⟨h.1, h.2⟩)
    | call | apply => exact .inl fun part hpart => by cases hpart
  rcases hparts with hparts | ⟨name, e, rfl⟩
  · exact .inl (hparts part hpart)
  · cases List.mem_singleton.mp hpart
    exact .inr ⟨name, h.2⟩

/-- `InPlace V P M`: the evaluation is one of the moments in `V`, its code is in its place, and the
frames fit the scopes around it. -/
structure InPlace (V : Moment → Prop) (P : Nat → List Layer → String → Prop) (M : Moment) :
    Prop where
  visited : V M
  housed : Housed V P M.machine.store
  code : ∃ Γ, M.task.Placed P Γ ∧
    Fits V M.machine.store (M.machine.store.path M.machine.current) Γ
  callee : ∀ c paren vs, M.task = .apply c paren vs →
    HousedAs V P .function M.machine.store c ∧ c.decl.arity = vs.length

theorem InPlace.mono (hV : ∀ M, V M → V' M) (hP : ∀ id Γ name, P id Γ name → P' id Γ name)
    {M : Moment} (h : InPlace V P M) : InPlace V' P' M := by
  obtain ⟨Γ, hcode, hfits⟩ := h.code
  refine ⟨hV M h.visited, h.housed.mono hV hP, ⟨Γ, ?_, hfits.mono hV⟩, fun c paren vs heq => ?_⟩
  · exact hcode.mono hP
  · obtain ⟨hhoused, harity⟩ := h.callee c paren vs heq
    exact ⟨hhoused.mono hV hP, harity⟩

theorem Continues.fits {m m' : Machine} (h : Continues V P m m')
    (hfits : Fits V m.store (m.store.path m.current) Γ) :
    Fits V m'.store (m'.store.path m'.current) Γ := by
  rw [h.current]
  exact hfits.path_grows h.grows

/-- The parameters of a function are bound to its arguments. -/
theorem binds_argumentBindings {c : Closure} {vs : List Value} (harity : c.decl.arity = vs.length)
    {x : String} (hx : x ∈ c.decl.params.map Token.lexeme) :
    (argumentBindings c vs).binds x = true := by
  have hfold : ∀ (params : List Token) (vs : List Value) (b : Bindings Value),
      params.length = vs.length → (b.binds x = true ∨ x ∈ params.map Token.lexeme) →
      ((params.zip vs).foldl (fun (b : Bindings Value) (p : Token × Value) =>
        b.insert p.1.lexeme p.2) b).binds x = true := by
    intro params
    induction params with
    | nil =>
      rintro vs b - (h | h)
      · exact h
      · cases h
    | cons param params ih =>
      intro vs b hlength h
      cases vs with
      | nil => cases hlength
      | cons v vs =>
        refine ih vs _ (Nat.succ.inj hlength) ?_
        rw [binds_insert, Bool.or_eq_true, decide_eq_true_eq]
        rcases h with h | h
        · exact .inl (.inr h)
        · rcases List.mem_cons.mp h with rfl | h
          · exact .inl (.inl rfl)
          · exact .inr h
  exact hfold c.decl.params vs [] harity (.inr hx)

/-- A declaration that has been run has bound its name in the present frame. -/
theorem bindsAt_of_exec {n : Nat} {stmt : Stmt} {m m₁ : Machine}
    (hrun : exec n stmt m = .ok .normal m₁) (hplaced : stmt.Placed P Γ)
    (hlt : m₁.current.index < m₁.store.frames.size) :
    ∀ name ∈ declared stmt, m₁.store.bindsAt name.lexeme m₁.current = true := by
  intro name hname
  have hbinds : ∀ (s : Store) (r : Ref .frames) (x : String) (v : Value),
      r.index < (s.define r x v).frames.size → (s.define r x v).bindsAt x r = true :=
    fun s r x v h => Store.bindsAt_define_self (by simpa [Store.define] using h) x v
  cases n with
  | zero => cases hrun
  | succ n =>
    unfold exec at hrun
    cases stmt with
    | var name' e? =>
      cases List.mem_singleton.mp hname
      cases e? with
      | none =>
        cases hrun
        exact hbinds _ _ _ _ hlt
      | some e =>
        obtain ⟨v, m₀, -, hrun⟩ := bind_ok hrun
        cases hrun
        exact hbinds _ _ _ _ hlt
    | function decl =>
      cases hrun
      have hdisplay : decl.displayName = name.lexeme := by
        have hname' : decl.name? = some name := Option.mem_toList.mp hname
        simp [FunctionDecl.displayName, hname']
      rw [← hdisplay]
      exact hbinds _ _ _ _ hlt
    | classDecl name' methods =>
      cases List.mem_singleton.mp hname
      cases hrun
      exact hbinds _ _ _ _ hlt
    | ifElse test yes no? =>
      cases no? with
      | none =>
        rw [declared, hplaced.2.2] at hname
        cases hname
      | some no =>
        rw [declared, hplaced.2.1.2, hplaced.2.2.2] at hname
        cases hname
    | loop test body step? =>
      cases step? with
      | none =>
        rw [declared, hplaced.2.2] at hname
        cases hname
      | some step =>
        rw [declared, hplaced.2.1.2] at hname
        cases hname
    | _ => cases hname

theorem apply_not_mem_parts (task : Task) (c : Closure) (paren : Token) (vs : List Value) :
    Task.apply c paren vs ∉ task.parts := by
  unfold Task.parts
  split <;> simp

/-- **What is run inside of an evaluation is in its place, if the evaluation is.** -/
theorem InPlace.leads (hV : ∀ {M' M}, V M → Within M' M → V M') {M' M : Moment}
    (h : InPlace V P M) (hwithin : Within M' M) (hleads : Leads (Continues V P) M' M) :
    InPlace V P M' := by
  have hvisited := hV h.visited hwithin
  obtain ⟨Γ, hplaced, hfits⟩ := h.code
  cases hleads with
  | part hpart hR =>
    have hfits' := hR.fits hfits
    refine ⟨hvisited, hR.housed h.housed, ?_, ?_⟩
    · rcases hplaced.part hpart with hpart | ⟨name, hpart⟩
      · exact ⟨Γ, hpart, hfits'⟩
      · exact ⟨_, hpart, hfits'.started name⟩
    · rintro c paren vs rfl
      exact absurd hpart (apply_not_mem_parts _ c paren vs)
  | others hfirst hR =>
    have hfits' := hR.fits hfits
    refine ⟨hvisited, hR.housed h.housed, ⟨_, hplaced.2, hfits'.introduced ?_⟩,
      fun _ _ _ heq => Task.noConfusion heq⟩
    exact bindsAt_of_exec hfirst hplaced.1 hfits'.lt_size
  | @block n m body =>
    have hhoused := h.housed.of_grows (.addFrame m.store m.current []) rfl rfl
    refine ⟨hvisited, hhoused, ⟨_, hplaced, hfits.entered (fun S hS => ?_) nofun fun f hf => ?_⟩,
      fun _ _ _ heq => Task.noConfusion heq⟩
    · cases site_ofBlock hS
      exact ⟨_, h.visited, .block⟩
    · cases site_ofBlock hf
  | @step n m m' test body s hR =>
    have hhoused := (hR.housed h.housed).of_grows (.addFrame m'.store m'.current []) rfl rfl
    obtain ⟨-, -, hstep, hnone⟩ := hplaced
    have hlayer : Layer.ofBlock [s] = ⟨none, []⟩ :=
      ofBlock_of_declaredBy (by simp [declaredBy, hnone])
    refine ⟨hvisited, hhoused, ⟨_, ⟨hstep, trivial⟩, (hR.fits hfits).entered ?_ ?_ ?_⟩,
      fun _ _ _ heq => Task.noConfusion heq⟩
    all_goals
      rw [hlayer]
      exact nofun
  | call hR =>
    exact ⟨hvisited, hR.housed h.housed, ⟨Γ, trivial, hR.fits hfits⟩,
      fun _ _ _ heq => Task.noConfusion heq⟩
  | callFunction harity =>
    refine ⟨hvisited, h.housed, ⟨Γ, trivial, hfits⟩, ?_⟩
    rintro c paren vs heq
    cases heq
    exact ⟨h.housed.closure _, harity⟩
  | @callInitializer n m k paren vs initializer hmethod harity =>
    have hadded : m.store.Grows (m.withInstance k).store := .of_frames rfl
    have hgrows := hadded.trans (.addFrame _ initializer.frame
      [(selfName, .instanceRef (m.store.addInstance k).1)])
    refine ⟨hvisited, h.housed.of_grows hgrows rfl rfl,
      ⟨Γ, trivial, hfits.path_grows hgrows⟩, ?_⟩
    rintro c paren vs heq
    cases heq
    exact ⟨((h.housed.method hmethod).grows hadded).bind h.visited (.construction hmethod harity),
      harity⟩
  | @body n m c paren vs =>
    obtain ⟨⟨Γ', hdecl, hfits'⟩, harity⟩ := h.callee c paren vs rfl
    obtain ⟨-, hbody⟩ := (FunctionDecl.placed_iff P c.decl Γ').mp hdecl
    have hhoused := h.housed.of_grows (.addFrame m.store c.frame (argumentBindings c vs)) rfl rfl
    refine ⟨hvisited, hhoused, ⟨_, hbody, hfits'.entered (fun S hS => ?_) (fun x hx => ?_) nofun⟩,
      fun _ _ _ heq => Task.noConfusion heq⟩
    · cases hS
      exact ⟨_, h.visited, .call⟩
    · rcases find?_withDefined_defined hx with hx | hx
      · cases hx
      · exact binds_argumentBindings harity hx

/-- An evaluation in its place binds no receiver. -/
theorem InPlace.names {M : Moment} (h : InPlace V P M) : ∀ name ∈ M.task.binds, name ≠ selfName := by
  obtain ⟨Γ, hplaced, -⟩ := h.code
  obtain ⟨n, task, m⟩ := M
  have hnone : ∀ name ∈ ([] : List String), name ≠ selfName := nofun
  cases task with
  | exec s =>
    cases s with
    | var name e? =>
      refine List.forall_mem_singleton.mpr ?_
      cases e? with
      | none => exact Held.ne_self hplaced name (List.mem_singleton.mpr rfl)
      | some e => exact hplaced.1.ne_self name (List.mem_singleton.mpr rfl)
    | function decl => exact List.forall_mem_singleton.mpr hplaced.1.displayName
    | classDecl name methods =>
      exact List.forall_mem_singleton.mpr (hplaced.1.ne_self name (List.mem_singleton.mpr rfl))
    | _ => exact hnone
  | eval e =>
    cases e with
    | assign id name value => exact List.forall_mem_singleton.mpr hplaced.1.2
    | _ => exact hnone
  | apply c paren vs =>
    obtain ⟨⟨Γ', hdecl, -⟩, -⟩ := h.callee c paren vs rfl
    exact List.forall_mem_map.mpr ((FunctionDecl.placed_iff P c.decl Γ').mp hdecl).1
  | _ => exact hnone

/-- The functions that an evaluation in its place makes are housed. -/
theorem InPlace.makes {M : Moment} {m : Machine} {role : Role} {c : Closure} (h : InPlace V P M)
    (hmakes : Makes M m role c) : HousedAs V P role m.store c := by
  obtain ⟨Γ, hplaced, hfits⟩ := h.code
  cases hmakes with
  | lambda => exact ⟨Γ, hplaced, hfits.path_grows (.of_frames rfl)⟩
  | @function n m decl =>
    have hrun : exec 1 (.function decl) m = .ok .normal (m.functionDeclared decl) := by
      unfold exec
      rfl
    have hfits' := hfits.path_grows (grows_functionDeclared m hplaced.1.displayName)
    exact ⟨_, hplaced.2, hfits'.introduced (bindsAt_of_exec hrun hplaced hfits'.lt_size)⟩
  | @method n m name methods decl hdecl =>
    have hrun : exec 1 (.classDecl name methods) m = .ok .normal (m.classDeclared name methods) := by
      unfold exec
      rfl
    have hname := hplaced.1.ne_self name (List.mem_singleton.mpr rfl)
    have hfits' := hfits.path_grows (grows_classDeclared m hname methods)
    exact ⟨_, placed_of_mem hplaced.2 hdecl,
      hfits'.introduced (bindsAt_of_exec hrun hplaced hfits'.lt_size)⟩

theorem InPlace.known {M : Moment} (h : InPlace V P M) :
    Known (fun role m c => HousedAs V P role m.store c) (fun name => name ≠ selfName)
      (fun F r method => ∃ M, V M ∧ Receives M F r method) M :=
  ⟨h.makes, h.names, fun hreceives => ⟨M, h.visited, hreceives⟩⟩

/-- What an evaluation in its place has come to at its end. -/
theorem InPlace.continues (hV : ∀ {M' M}, V M → Within M' M → V M') {M : Moment}
    (h : InPlace V P M) :
    Continues V P M.machine M.final :=
  (kept_continues.everywhere (fun h => h.known) (fun h hin => h.leads hV hin) h).1

end Machine

end Roteiro
