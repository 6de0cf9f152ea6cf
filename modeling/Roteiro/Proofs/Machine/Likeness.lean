import Roteiro.Proofs.Machine.Kept
import Roteiro.Proofs.Tree.Likeness

/-!
# Running programs of one shape

Two programs of one shape do the same if their names lead to the same values. How the names of one
program correspond to those of the other is left open here: a `Scheme` says what is known of the
frames of two machines (in a *world*, of which more is known the longer the machines run), which of
them correspond and with which marks, and when the names in them correspond. Frames that are opened
for the same scope correspond, and get the mark of that scope.

`Parallel S w bs Q E A step step'` says of two steps: from machines that are alike in a world in
which at least as much is known as in `w`, and in which the present frames have the marks `bs`, they
end in the same way, with results that correspond by `A` or failures that correspond by `E`, in
machines that are alike. Nothing is said if the first step stops for a reason in `Q`: under a scheme
that is *patient*, the second machine may have more fuel, and the first one may run out of it.

* `Scheme`: how the names in two machines correspond.
* `stepsParallel`: with any fuel, evaluations of trees of one shape take place in parallel.
* `execProgram_like`: programs of one shape are run in parallel.
-/

namespace Roteiro

/-- The value of an occurrence of a name: at its depth if it has one, else among the globals. -/
def Machine.valueOf? (m : Machine) (id : Nat) (name : String) : Option Value :=
  match m.depths[id]? with
  | some distance => m.store.lookupAt? m.current distance name
  | none => m.store.lookup? Store.globals name

/-- How the names in two machines correspond that run programs of one shape. -/
structure Scheme (L : Likeness) where
  /-- What is known of the frames. -/
  World : Type
  /-- At least as much is known. -/
  le : World → World → Prop
  /-- The names in the frames of two stores correspond. -/
  Frames : World → Store → Store → Prop
  /-- Two frames correspond. They and the frames around them stand for scopes with these marks. -/
  Marked : World → Ref .frames → Ref .frames → List Bool → Prop
  /-- What is bound in two frames that stand for a scope with this mark. -/
  Bound : Bool → Bindings Value → Bindings Value → Prop
  Depths : Depths → Depths → Prop
  /-- The tokens that two failures are blamed on, and the failures. -/
  Fault : Token → Failure → Token → Failure → Prop
  /-- The second machine may have more fuel. -/
  patient : Prop
  refl : ∀ w, le w w
  trans : ∀ {w w' w''}, le w w' → le w' w'' → le w w''
  marked_mono : ∀ {w w' r r' bs}, Marked w r r' bs → le w w' → Marked w' r r' bs
  /-- Tokens that a run looks at are the same to it. -/
  kind : ∀ {t t'}, L.token t t' → t'.kind = t.kind
  lexeme : ∀ {t t'}, L.token t t' → t'.lexeme = t.lexeme
  keyword : ∀ {t t'}, L.keyword t t' → t'.kind = t.kind
  named : ∀ {b n n'}, L.named b n n' → n'.lexeme = n.lexeme
  fault : ∀ {t t'}, L.token t t' → ∀ failure, Fault t failure t' failure
  /-- A missing receiver is blamed on a token on the line of the call. -/
  noReceiver : ∀ {t t'}, L.token t t' →
    Fault ⟨.selfKw, selfName, t.line⟩ (.undefinedVariable selfName)
    ⟨.selfKw, selfName, t'.line⟩ (.undefinedVariable selfName)
  missing : ∀ {bs i n i' n'}, L.occurrence bs i n i' n' →
    Fault n (.undefinedVariable n.lexeme) n' (.undefinedVariable n'.lexeme)
  congr : ∀ {w s s' t t'}, Frames w s s' → t.frames = s.frames → t'.frames = s'.frames →
    Frames w t t'
  bound_nil : ∀ b, Bound b [] []
  bound_self : ∀ v, Bound false [(selfName, v)] [(selfName, v)]
  bound_insert : ∀ {b x x' n n'}, Bound b x x' → L.binder b n n' → ∀ v,
    Bound b (x.insert n.lexeme v) (x'.insert n'.lexeme v)
  /-- A frame is opened for a scope with any mark. -/
  enter : ∀ {w s s' r r' bs b x x'}, Frames w s s' → Marked w r r' bs → Bound b x x' →
    ∃ w', le w w' ∧ Frames w' (s.addFrame r x).2 (s'.addFrame r' x').2 ∧
      Marked w' (s.addFrame r x).1 (s'.addFrame r' x').1 (b :: bs)
  define : ∀ {w s s' r r' bs n n'}, Frames w s s' → Marked w r r' bs →
    L.binder (innermost bs) n n' → ∀ v,
    Frames w (s.define r n.lexeme v) (s'.define r' n'.lexeme v)
  /-- Functions and classes keep their names, and functions that have none are declared under the
  one that they are shown with. -/
  define_named : ∀ {w s s' r r' bs name}, Frames w s s' → Marked w r r' bs →
    (L.unnamed (innermost bs) ∨ ∃ n n', L.named (innermost bs) n n' ∧ n.lexeme = name) → ∀ v,
    Frames w (s.define r name v) (s'.define r' name v)
  receiver : ∀ {w s s' r r' bs}, Frames w s s' → Marked w r r' bs →
    s'.lookupAt? r' 0 selfName = s.lookupAt? r 0 selfName
  read : ∀ {w bs i n i' n'} {m m' : Machine}, L.occurrence bs i n i' n' →
    Marked w m.current m'.current bs → Frames w m.store m'.store → Depths m.depths m'.depths →
    m'.valueOf? i' n'.lexeme = m.valueOf? i n.lexeme
  /-- What is assigned to is bound in both machines or in none, and may be bound anew. -/
  assign : ∀ {w bs i n i' n'} {m m' : Machine}, L.occurrence bs i n i' n' →
    Marked w m.current m'.current bs → Frames w m.store m'.store → Depths m.depths m'.depths →
    Option.Rel
      (fun r r' => ∀ v, Frames w (m.store.define r n.lexeme v) (m'.store.define r' n'.lexeme v))
      (m.owner? i n.lexeme) (m'.owner? i' n'.lexeme)

variable {L : Likeness} {S : Scheme L}

/-! ### Trees of one shape under a scheme -/

theorem FunctionDecl.Like.named {b : Bool} {bs : List Bool} {f f' : FunctionDecl}
    (h : f.Like L b bs f') (hname : f.name? ≠ none) :
    ∃ n n', L.named b n n' ∧ n.lexeme = f.displayName := by
  cases h with
  | mk hnames _ _ =>
    cases hnames with
    | none => exact absurd rfl hname
    | some hnamed => exact ⟨_, _, hnamed, rfl⟩

/-! ### Stores and machines -/

/-- Functions whose code has one shape. -/
structure Closure.Like (S : Scheme L) (w : S.World) (c c' : Closure) : Prop where
  isInitializer : c'.isInitializer = c.isInitializer
  decl : ∃ b bs, S.Marked w c.frame c'.frame bs ∧ c.decl.Like L b bs c'.decl

/-- Methods that have not met their receiver. The frame of the receiver is still to be opened. -/
structure Closure.LikeMethod (S : Scheme L) (w : S.World) (c c' : Closure) : Prop where
  isInitializer : c'.isInitializer = c.isInitializer
  decl : ∃ bs, S.Marked w c.frame c'.frame bs ∧ c.decl.Like L false (false :: bs) c'.decl

/-- The methods of one class and those of another. -/
def methodsLike (S : Scheme L) (w : S.World) (b b' : Bindings Closure) : Prop :=
  List.Forall₂ (fun p p' => p'.1 = p.1 ∧ p.2.LikeMethod S w p'.2) b b'

structure ClassInfo.Like (S : Scheme L) (w : S.World) (k k' : ClassInfo) : Prop where
  name : k'.name = k.name
  methods : methodsLike S w k.methods k'.methods

/-- Stores in which the names correspond and the code has one shape. -/
structure Store.Like (S : Scheme L) (w : S.World) (s s' : Store) : Prop where
  frames : S.Frames w s s'
  arrays : s'.arrays = s.arrays
  instances : s'.instances = s.instances
  functions_size : s'.functions.size = s.functions.size
  functions : ∀ f, (s.closure f).Like S w (s'.closure f)
  classes_size : s'.classes.size = s.classes.size
  classes : ∀ k, (s.classInfo k).Like S w (s'.classInfo k)

/-- Machines whose present frames have the marks `bs`. -/
structure Machine.Like (S : Scheme L) (w : S.World) (bs : List Bool) (m m' : Machine) : Prop where
  store : m.store.Like S w m'.store
  marked : S.Marked w m.current m'.current bs
  depths : S.Depths m.depths m'.depths
  host : m'.host = m.host

/-- Steps that stopped for the same reason. -/
inductive Halt.Like (S : Scheme L) : Halt → Halt → Prop
  | failed {e e'} (h : S.Fault e.token e.failure e'.token e'.failure) :
    Halt.Like S (.failed e) (.failed e')
  | outOfFuel : Halt.Like S .outOfFuel .outOfFuel

/-- Steps of which nothing is said: the second one may come further. -/
def Scheme.Quits (S : Scheme L) (e : Halt) : Prop := S.patient ∧ e = .outOfFuel

/-- How much fuel the two machines may have. -/
def Scheme.Fuel (S : Scheme L) (n n' : Nat) : Prop := n' = n ∨ S.patient ∧ n ≤ n'

section Mono

variable {w w' : S.World} (hw : S.le w w')

include hw

theorem Closure.Like.mono {c c' : Closure} (h : c.Like S w c') : c.Like S w' c' := by
  obtain ⟨b, bs, hmarked, hdecl⟩ := h.decl
  exact ⟨h.isInitializer, b, bs, S.marked_mono hmarked hw, hdecl⟩

theorem Closure.LikeMethod.mono {c c' : Closure} (h : c.LikeMethod S w c') :
    c.LikeMethod S w' c' := by
  obtain ⟨bs, hmarked, hdecl⟩ := h.decl
  exact ⟨h.isInitializer, bs, S.marked_mono hmarked hw, hdecl⟩

theorem ClassInfo.Like.mono {k k' : ClassInfo} (h : k.Like S w k') : k.Like S w' k' :=
  ⟨h.name, h.methods.imp fun _ _ hp => ⟨hp.1, hp.2.mono hw⟩⟩

/-- The frames may have changed, as long as their names correspond. -/
theorem Store.Like.withFrames {s s' : Store} (h : s.Like S w s') {frames frames' : Array Frame}
    (hframes : S.Frames w' { s with frames } { s' with frames := frames' }) :
    Store.Like S w' { s with frames } { s' with frames := frames' } :=
  ⟨hframes, h.arrays, h.instances, h.functions_size, fun f => (h.functions f).mono hw,
    h.classes_size, fun k => (h.classes k).mono hw⟩

end Mono

section Methods

variable {w : S.World} {b b' : Bindings Closure}

theorem methodsLike.find? (h : methodsLike S w b b') (name : String) :
    Option.Rel (Closure.LikeMethod S w) (b.find? name) (b'.find? name) := by
  induction h with
  | nil => exact .none
  | @cons p p' b b' hp _ ih =>
    simp only [Bindings.find?, hp.1]
    split
    · exact .some hp.2
    · exact ih

theorem methodsLike.binds (h : methodsLike S w b b') (name : String) :
    b'.binds name = b.binds name := by
  have hfound := h.find? name
  unfold Bindings.binds
  generalize Bindings.find? name b = found at hfound ⊢
  generalize Bindings.find? name b' = found' at hfound ⊢
  cases hfound <;> rfl

theorem methodsLike.insert (h : methodsLike S w b b') (name : String) {c c' : Closure}
    (hc : c.LikeMethod S w c') : methodsLike S w (b.insert name c) (b'.insert name c') := by
  have hreplace : methodsLike S w (b.replace name c) (b'.replace name c') := by
    induction h with
    | nil => exact .nil
    | @cons p p' b b' hp hb ih =>
      simp only [Bindings.replace, hp.1]
      split
      · exact .cons ⟨rfl, hc⟩ hb
      · exact .cons ⟨rfl, hp.2⟩ ih
  unfold Bindings.insert
  rw [h.binds name]
  split
  · exact hreplace
  · exact .cons ⟨rfl, hc⟩ h

end Methods

namespace Store.Like

variable {w : S.World} {s s' : Store} (h : s.Like S w s')

include h

theorem table (a : Ref .arrays) : s'.table a = s.table a := by
  rw [Store.table, Store.table, h.arrays]

theorem instanceAt (i : Ref .instances) : s'.instanceAt i = s.instanceAt i := by
  rw [Store.instanceAt, Store.instanceAt, h.instances]

theorem putEntry (a : Ref .arrays) (key : String) (v : Value) :
    (s.putEntry a key v).Like S w (s'.putEntry a key v) := by
  refine ⟨S.congr h.frames rfl rfl, ?_, h.instances, h.functions_size, h.functions, h.classes_size,
    h.classes⟩
  simp only [Store.putEntry, h.arrays]

theorem setField (i : Ref .instances) (name : String) (v : Value) :
    (s.setField i name v).Like S w (s'.setField i name v) := by
  refine ⟨S.congr h.frames rfl rfl, h.arrays, ?_, h.functions_size, h.functions, h.classes_size,
    h.classes⟩
  simp only [Store.setField, h.instances]

theorem addArray (t : Table Value) :
    (s'.addArray t).1 = (s.addArray t).1 ∧ (s.addArray t).2.Like S w (s'.addArray t).2 := by
  refine ⟨by simp only [Store.addArray, h.arrays], S.congr h.frames rfl rfl, ?_, h.instances,
    h.functions_size, h.functions, h.classes_size, h.classes⟩
  simp only [Store.addArray, h.arrays]

theorem addInstance (k : Ref .classes) :
    (s'.addInstance k).1 = (s.addInstance k).1 ∧
      (s.addInstance k).2.Like S w (s'.addInstance k).2 := by
  refine ⟨by simp only [Store.addInstance, h.instances], S.congr h.frames rfl rfl, h.arrays, ?_,
    h.functions_size, h.functions, h.classes_size, h.classes⟩
  simp only [Store.addInstance, h.instances]

theorem addFunction {c c' : Closure} (hc : c.Like S w c') :
    (s'.addFunction c').1 = (s.addFunction c).1 ∧
      (s.addFunction c).2.Like S w (s'.addFunction c').2 := by
  refine ⟨by simp only [Store.addFunction, h.functions_size], S.congr h.frames rfl rfl, h.arrays,
    h.instances, ?_, fun f => ?_, h.classes_size, h.classes⟩
  · simp only [Store.addFunction, Array.size_push, h.functions_size]
  · have hold := h.functions f
    simp only [Store.closure, Store.addFunction, Array.getD_eq_getD_getElem?, Array.getElem?_push,
      h.functions_size] at hold ⊢
    split
    · exact hc
    · exact hold

theorem addClass {k k' : ClassInfo} (hk : k.Like S w k') :
    (s'.addClass k').1 = (s.addClass k).1 ∧ (s.addClass k).2.Like S w (s'.addClass k').2 := by
  refine ⟨by simp only [Store.addClass, h.classes_size], S.congr h.frames rfl rfl, h.arrays,
    h.instances, h.functions_size, h.functions, ?_, fun c => ?_⟩
  · simp only [Store.addClass, Array.size_push, h.classes_size]
  · have hold := h.classes c
    simp only [Store.classInfo, Store.addClass, Array.getD_eq_getD_getElem?, Array.getElem?_push,
      h.classes_size] at hold ⊢
    split
    · exact hk
    · exact hold

/-- Functions and classes are written by their names. -/
theorem textWithin (depth : Nat) (around : List (Ref .arrays)) (v : Value) :
    s'.textWithin depth around v = s.textWithin depth around v := by
  have hfunction : ∀ f, (s'.closure f).decl.displayName = (s.closure f).decl.displayName := by
    intro f
    obtain ⟨_, _, _, hdecl⟩ := (h.functions f).decl
    exact hdecl.displayName S.named
  induction depth generalizing around v with
  | zero =>
    cases v with
    | function f => simp only [Store.textWithin, hfunction f]
    | classRef c => simp only [Store.textWithin, (h.classes c).name]
    | instanceRef i => simp only [Store.textWithin, h.instanceAt, (h.classes _).name]
    | boolean b => cases b <;> rfl
    | _ => rfl
  | succ depth ih =>
    cases v with
    | function f => simp only [Store.textWithin, hfunction f]
    | classRef c => simp only [Store.textWithin, (h.classes c).name]
    | instanceRef i => simp only [Store.textWithin, h.instanceAt, (h.classes _).name]
    | boolean b => cases b <;> rfl
    | array a => simp only [Store.textWithin, h.table, ih]
    | _ => rfl

theorem text (v : Value) : s'.text v = s.text v := by
  rw [Store.text, Store.text, h.arrays, h.textWithin]

theorem binary {operator operator' : Token} (ho : L.token operator operator') (l r : Value) :
    Operator.binary s' operator' l r = Operator.binary s operator l r := by
  have hplus : Operator.plus s' l r = Operator.plus s l r := by
    unfold Operator.plus
    split <;> simp only [h.text]
  have hnumeric : ∀ x y, Operator.numeric operator' x y = Operator.numeric operator x y := by
    intro x y
    simp only [Operator.numeric, S.kind ho, S.lexeme ho]
  simp only [Operator.binary, S.kind ho, S.lexeme ho, hplus, hnumeric]

end Store.Like

namespace Machine

/-! ### Steps in sequence -/

/-- Two steps have ended in the same way, in a world in which at least as much is known. -/
inductive Ended (S : Scheme L) (w : S.World) (bs : List Bool) {ε ε' α α' : Type} (Q : ε → Prop)
    (E : ε → ε' → Prop) (A : S.World → α → α' → Prop) :
    EStateM.Result ε Machine α → EStateM.Result ε' Machine α' → Prop
  | ok {w' a a' m m'} (hw : S.le w w') (ha : A w' a a') (hm : m.Like S w' bs m') :
    Ended S w bs Q E A (.ok a m) (.ok a' m')
  | error {w' e e' m m'} (hw : S.le w w') (he : E e e') (hm : m.Like S w' bs m') :
    Ended S w bs Q E A (.error e m) (.error e' m')
  | quit {e m result'} (he : Q e) : Ended S w bs Q E A (.error e m) result'

/-- From machines that are alike, two steps end in the same way. -/
def Parallel (S : Scheme L) (w : S.World) (bs : List Bool) {ε ε' α α' : Type} (Q : ε → Prop)
    (E : ε → ε' → Prop) (A : S.World → α → α' → Prop) (step : EStateM ε Machine α)
    (step' : EStateM ε' Machine α') : Prop :=
  ∀ w₁ m m', S.le w w₁ → m.Like S w₁ bs m' → Ended S w₁ bs Q E A (step m) (step' m')

/-- Results that are the same. -/
abbrev Same {α : Type} : S.World → α → α → Prop := fun _ a a' => a = a'

section Parallel

variable {w : S.World} {bs : List Bool} {ε ε' α α' β β' : Type} {Q : ε → Prop}
  {E : ε → ε' → Prop} {A : S.World → α → α' → Prop} {B : S.World → β → β' → Prop}

theorem Ended.weaken {w₁ : S.World} (hw : S.le w w₁) {result result'}
    (h : Ended S w₁ bs Q E A result result') : Ended S w bs Q E A result result' := by
  cases h with
  | ok hw' ha hm => exact .ok (S.trans hw hw') ha hm
  | error hw' he hm => exact .error (S.trans hw hw') he hm
  | quit he => exact .quit he

theorem Parallel.pure {a : α} {a' : α'} (h : ∀ {w₁}, S.le w w₁ → A w₁ a a') :
    Parallel S w bs Q E A (pure a) (pure a') :=
  fun _ _ _ hw hm => .ok (S.refl _) (h hw) hm

theorem parallel_throw {e : ε} {e' : ε'} (h : E e e') :
    Parallel S w bs Q E A (throw e) (throw e') :=
  fun _ _ _ _ hm => .error (S.refl _) h hm

theorem Parallel.bind {step : EStateM ε Machine α} {step' : EStateM ε' Machine α'}
    {next : α → EStateM ε Machine β} {next' : α' → EStateM ε' Machine β'}
    (h : Parallel S w bs Q E A step step')
    (hnext : ∀ w₁ a a', S.le w w₁ → A w₁ a a' → Parallel S w₁ bs Q E B (next a) (next' a')) :
    Parallel S w bs Q E B (step >>= next) (step' >>= next') := by
  intro w₁ m m' hw hm
  have hended := h w₁ m m' hw hm
  simp only [Bind.bind, EStateM.bind]
  generalize step m = result at hended ⊢
  generalize step' m' = result' at hended ⊢
  cases hended with
  | ok hw' ha hm =>
    exact (hnext _ _ _ (S.trans hw hw') ha _ _ _ (S.refl _) hm).weaken hw'
  | error hw' he hm => exact .error hw' he hm
  | quit he => exact .quit he

/-- A step of which the result is the same. -/
theorem Parallel.andThen {step step' : EStateM ε Machine α} {next : α → EStateM ε Machine β}
    {next' : α → EStateM ε Machine β'} {E : ε → ε → Prop} (h : Parallel S w bs Q E Same step step')
    (hnext : ∀ {w₁} a, S.le w w₁ → Parallel S w₁ bs Q E B (next a) (next' a)) :
    Parallel S w bs Q E B (step >>= next) (step' >>= next') := by
  refine h.bind fun w₁ a a' hw ha => ?_
  subst ha
  exact hnext a hw

theorem Parallel.ite {c : Prop} [Decidable c] {yes no : EStateM ε Machine α}
    {yes' no' : EStateM ε' Machine α'} (hyes : Parallel S w bs Q E A yes yes')
    (hno : Parallel S w bs Q E A no no') :
    Parallel S w bs Q E A (if c then yes else no) (if c then yes' else no') := by
  split
  · exact hyes
  · exact hno

end Parallel

/-! ### Builtin functions -/

section Builtin

open Builtin

/-- An action that does the same on machines that are alike. -/
def Blind (S : Scheme L) {α : Type} (act : Act α) : Prop :=
  ∀ w bs, Parallel S w bs (fun _ => False) (· = ·) Same act act

variable {α β : Type}

theorem Blind.pure (a : α) : Blind S (pure a : Act α) := fun _ _ => Parallel.pure fun _ => rfl

theorem Blind.throw (failure : Failure) : Blind S (throw failure : Act α) :=
  fun _ _ => parallel_throw rfl

theorem Blind.bind {act : Act α} {next : α → Act β} (h : Blind S act)
    (hnext : ∀ a, Blind S (next a)) : Blind S (act >>= next) :=
  fun w bs => (h w bs).andThen fun {w₁} a _ => hnext a w₁ bs

/-- What is read from the store is the same. -/
theorem Blind.read {next : Store → Act β} (hsame : ∀ w s s', s.Like S w s' → next s' = next s)
    (hnext : ∀ s, Blind S (next s)) : Blind S (Builtin.store >>= next) := by
  intro w bs w₁ m m' hw hm
  have hrun : Ended S w₁ bs (fun _ => False) (· = ·) Same (next m.store m) (next m'.store m') := by
    rw [hsame w₁ m.store m'.store hm.store]
    exact hnext m.store w bs w₁ m m' hw hm
  exact hrun

theorem blind_check (result : Except Failure α) : Blind S (check result) := by
  cases result with
  | ok a => exact .pure a
  | error failure => exact .throw failure

theorem blind_newArray (t : Table Value) : Blind S (newArray t) := by
  intro w bs w₁ m m' _ hm
  obtain ⟨href, hstore⟩ := hm.store.addArray t
  exact .ok (S.refl _) (congrArg Value.array href.symm)
    ⟨hstore, hm.marked, hm.depths, hm.host⟩

theorem blind_putEntry (a : Ref .arrays) (key : String) (v : Value) : Blind S (putEntry a key v) :=
  fun _ _ _ _ _ _ hm =>
    .ok (S.refl _) rfl ⟨hm.store.putEntry a key v, hm.marked, hm.depths, hm.host⟩

theorem blind_nextLine : Blind S nextLine := by
  intro w bs w₁ m m' _ hm
  unfold nextLine
  rw [hm.host]
  split
  next line rest _ =>
    have hread : Machine.Like S w₁ bs { m with host := { m.host with input := rest } }
        { m' with host := { m.host with input := rest } } :=
      ⟨hm.store, hm.marked, hm.depths, rfl⟩
    dsimp only
    split
    · exact .ok (S.refl _) rfl hread
    · split
      · exact .ok (S.refl _) rfl hread
      · exact .error (S.refl _) rfl hread

theorem blind_nextTime : Blind S nextTime := by
  intro w bs w₁ m m' _ hm
  unfold nextTime
  rw [hm.host]
  exact .ok (S.refl _) rfl ⟨hm.store, hm.marked, hm.depths, rfl⟩

theorem blind_nextRandom (least greatest : Int) : Blind S (nextRandom least greatest) := by
  intro w bs w₁ m m' _ hm
  unfold nextRandom
  rw [hm.host]
  exact .ok (S.refl _) rfl ⟨hm.store, hm.marked, hm.depths, rfl⟩

theorem count_like {w : S.World} {s s' : Store} (h : s.Like S w s') (v : Value) :
    count s' v = count s v := by
  simp only [count, h.text]

theorem sizeOf_like {w : S.World} {s s' : Store} (h : s.Like S w s') (v : Value) :
    Builtin.sizeOf s' v = Builtin.sizeOf s v := by
  unfold Builtin.sizeOf
  split <;> simp only [h.table]

/-- Builtin functions know of functions and classes only how they are written. -/
theorem blind_call (b : Builtin) (vs : List Value) : Blind S (b.call vs) := by
  have hfill : ∀ (length v : Value), Blind S (do
      let n ← check (count (← Builtin.store) length)
      filled n v) := by
    intro length v
    refine .read (fun w s s' h => by rw [count_like h]) fun s => ?_
    exact (blind_check _).bind fun n => blind_newArray _
  unfold Builtin.call
  split
  · exact blind_nextTime
  · exact (blind_check _).bind fun x => (blind_check _).bind fun y => .pure _
  · exact blind_nextLine
  · refine .read (fun w s s' h => by rw [sizeOf_like h]) fun s => ?_
    exact (blind_check _).bind fun n => .pure _
  · refine (blind_check _).bind fun a => .read (fun w s s' h => by rw [h.table]) fun s => ?_
    exact (blind_putEntry a _ _).bind fun _ => .pure _
  · refine (blind_check _).bind fun a => (blind_check _).bind fun k => ?_
    exact (blind_putEntry a k _).bind fun _ => .pure _
  · refine (blind_check _).bind fun a => (blind_check _).bind fun k => ?_
    exact .read (fun w s s' h => by rw [h.table]) fun s => .pure _
  · refine (blind_check _).bind fun x => (blind_check _).bind fun y => ?_
    split
    · exact .throw _
    · exact blind_nextRandom _ _
  · exact hfill _ _
  · exact hfill _ _
  · exact hfill _ _
  · exact .throw _

end Builtin

/-! ### Actions -/

section Actions

variable {w : S.World} {bs : List Bool} {α α' : Type} {A : S.World → α → α' → Prop}

/-- Two steps of a program take place in parallel. -/
abbrev Steps (S : Scheme L) (w : S.World) (bs : List Bool) (A : S.World → α → α' → Prop)
    (step : Run α) (step' : Run α') : Prop :=
  Parallel S w bs S.Quits (Halt.Like S) A step step'

theorem steps_outOfFuel : Steps S w bs A (throw .outOfFuel) (throw .outOfFuel) :=
  parallel_throw .outOfFuel

theorem steps_quit (hpatient : S.patient) {step' : Run α'} :
    Steps S w bs A (throw .outOfFuel) step' :=
  fun _ _ _ _ _ => .quit ⟨hpatient, rfl⟩

theorem steps_fail {t t' : Token} (ht : L.token t t') (failure : Failure) :
    Steps S w bs A (fail t failure) (fail t' failure) :=
  parallel_throw (.failed (S.fault ht failure))

theorem steps_orFail {t t' : Token} (ht : L.token t t') (result : Except Failure α) :
    Steps S w bs Same (orFail t result) (orFail t' result) := by
  cases result with
  | ok a => exact .pure fun _ => rfl
  | error failure => exact steps_fail ht failure

theorem steps_withStore {read : Store → α} {read' : Store → α'}
    (h : ∀ w₁ s s', s.Like S w₁ s' → A w₁ (read s) (read' s')) :
    Steps S w bs A (withStore read) (withStore read') :=
  fun _ _ _ _ hm => .ok (S.refl _) (h _ _ _ hm.store) hm

/-- The machines are in frames that correspond. -/
theorem steps_here : Steps S w bs (fun w₁ r r' => S.Marked w₁ r r' bs)
    (fun m => .ok m.current m : Run (Ref .frames)) (fun m => .ok m.current m : Run (Ref .frames)) :=
  fun _ _ _ _ hm => .ok (S.refl _) hm.marked hm

theorem steps_allocate {add add' : Store → α × Store}
    (h : ∀ w₁ s s', S.le w w₁ → s.Like S w₁ s' →
      (add' s').1 = (add s).1 ∧ (add s).2.Like S w₁ (add' s').2) :
    Steps S w bs Same (allocate add) (allocate add') := by
  intro w₁ m m' hw hm
  obtain ⟨href, hstore⟩ := h _ _ _ hw hm.store
  exact .ok (S.refl _) href.symm ⟨hstore, hm.marked, hm.depths, hm.host⟩

/-- A frame is opened in both machines, for a scope with the mark `b`. -/
theorem steps_addFrame {r r' : Ref .frames} {cs : List Bool} (hr : S.Marked w r r' cs) {b : Bool}
    {x x' : Bindings Value} (hx : S.Bound b x x') :
    Steps S w bs (fun w₁ f f' => S.Marked w₁ f f' (b :: cs))
      (allocate fun s => s.addFrame r x)
      (allocate fun s => s.addFrame r' x') := by
  intro w₁ m m' hw hm
  obtain ⟨w₂, hw₂, hframes, hmarked⟩ := S.enter hm.store.frames (S.marked_mono hr hw) hx
  exact .ok hw₂ hmarked ⟨hm.store.withFrames hw₂ hframes, S.marked_mono hm.marked hw₂, hm.depths,
    hm.host⟩

theorem steps_changeStore {change : Store → Store}
    (h : ∀ w₁ s s', s.Like S w₁ s' → (change s).Like S w₁ (change s')) :
    Steps S w bs Same (changeStore change) (changeStore change) :=
  fun _ _ _ _ hm =>
    .ok (S.refl _) rfl ⟨h _ _ _ hm.store, hm.marked, hm.depths, hm.host⟩

theorem steps_write (text : String) : Steps S w bs Same (write text) (write text) := by
  intro w₁ m m' _ hm
  refine .ok (S.refl _) rfl ⟨hm.store, hm.marked, hm.depths, ?_⟩
  dsimp only
  rw [hm.host]

theorem steps_define {n n' : Token} (hn : L.binder (innermost bs) n n') (v : Value) :
    Steps S w bs Same (define n.lexeme v) (define n'.lexeme v) := by
  intro w₁ m m' _ hm
  exact .ok (S.refl _) rfl
    ⟨hm.store.withFrames (S.refl _) (S.define hm.store.frames hm.marked hn v), hm.marked, hm.depths,
      hm.host⟩

theorem steps_define_named {name : String}
    (hname : L.unnamed (innermost bs) ∨ ∃ n n', L.named (innermost bs) n n' ∧ n.lexeme = name)
    (v : Value) :
    Steps S w bs Same (define name v) (define name v) := by
  intro w₁ m m' _ hm
  exact .ok (S.refl _) rfl
    ⟨hm.store.withFrames (S.refl _) (S.define_named hm.store.frames hm.marked hname v), hm.marked,
      hm.depths, hm.host⟩

/-- What a step has come to, with the machine in the given frame. -/
def backIn {ε : Type} (here : Ref .frames) :
    EStateM.Result ε Machine α → EStateM.Result ε Machine α
  | .ok a m => .ok a { m with current := here }
  | .error e m => .error e { m with current := here }

theorem inFrame_backIn (frame : Ref .frames) (step : Run α) (m : Machine) :
    inFrame frame step m = backIn m.current (step { m with current := frame }) := by
  rw [inFrame_eq]
  cases step { m with current := frame } <;> rfl

theorem inNewFrame_backIn (step : Run α) (m : Machine) :
    inNewFrame step m = backIn m.current (step (m.enter m.current [])) := by
  rw [inNewFrame_eq]
  cases step (m.enter m.current []) <;> rfl

/-- Both machines come back to the frames in which they were alike. -/
theorem Ended.back {w w' : S.World} {bs cs : List Bool} {ε ε' : Type} {Q : ε → Prop}
    {E : ε → ε' → Prop} {m m' : Machine} (hm : m.Like S w bs m') (hw : S.le w w')
    {result : EStateM.Result ε Machine α} {result' : EStateM.Result ε' Machine α'}
    (h : Ended S w' cs Q E A result result') :
    Ended S w bs Q E A (backIn m.current result) (backIn m'.current result') := by
  have hback : ∀ {w₁ m₁ m₁'}, S.le w' w₁ → Machine.Like S w₁ cs m₁ m₁' →
      Machine.Like S w₁ bs { m₁ with current := m.current } { m₁' with current := m'.current } :=
    fun hw₁ h₁ => ⟨h₁.store, S.marked_mono hm.marked (S.trans hw hw₁), h₁.depths, h₁.host⟩
  cases h with
  | ok hw₁ ha hm₁ => exact .ok (S.trans hw hw₁) ha (hback hw₁ hm₁)
  | error hw₁ he hm₁ => exact .error (S.trans hw hw₁) he (hback hw₁ hm₁)
  | quit he => exact .quit he

theorem steps_inFrame {frame frame' : Ref .frames} {cs : List Bool}
    (hframe : S.Marked w frame frame' cs) {step : Run α} {step' : Run α'}
    (h : Steps S w cs A step step') :
    Steps S w bs A (inFrame frame step) (inFrame frame' step') := by
  intro w₁ m m' hw hm
  have hended := h w₁ { m with current := frame } { m' with current := frame' } hw
    ⟨hm.store, S.marked_mono hframe hw, hm.depths, hm.host⟩
  rw [inFrame_backIn, inFrame_backIn]
  exact hended.back hm (S.refl _)

theorem steps_inNewFrame (b : Bool) {step : Run α} {step' : Run α'}
    (h : ∀ w₁, Steps S w₁ (b :: bs) A step step') :
    Steps S w bs A (inNewFrame step) (inNewFrame step') := by
  refine steps_here.bind fun w₁ here here' _ hhere => ?_
  refine (steps_addFrame hhere (S.bound_nil b)).bind fun w₂ frame frame' _ hframe => ?_
  exact steps_inFrame hframe (h w₂)

theorem readName_eq (id : Nat) (name : Token) (m : Machine) : readName id name m =
    match m.valueOf? id name.lexeme with
    | some value => .ok value m
    | none => fail name (.undefinedVariable name.lexeme) m := rfl

theorem steps_readName {i i' : Nat} {n n' : Token} (hn : L.occurrence bs i n i' n') :
    Steps S w bs Same (readName i n) (readName i' n') := by
  intro w₁ m m' _ hm
  have hvalue := S.read hn hm.marked hm.store.frames hm.depths
  rw [readName_eq, readName_eq, hvalue]
  cases m.valueOf? i n.lexeme with
  | some v => exact .ok (S.refl _) rfl hm
  | none => exact .error (S.refl _) (.failed (S.missing hn)) hm

theorem steps_assignName {i i' : Nat} {n n' : Token} (hn : L.occurrence bs i n i' n') (v : Value) :
    Steps S w bs Same (assignName i n v) (assignName i' n' v) := by
  intro w₁ m m' _ hm
  have howner := S.assign hn hm.marked hm.store.frames hm.depths
  unfold assignName
  generalize m.owner? i n.lexeme = owner at howner ⊢
  generalize m'.owner? i' n'.lexeme = owner' at howner ⊢
  cases howner with
  | some hframes =>
    exact .ok (S.refl _) rfl
      ⟨hm.store.withFrames (S.refl _) (hframes v), hm.marked, hm.depths, hm.host⟩
  | none => exact .error (S.refl _) (.failed (S.missing hn)) hm

theorem steps_makeFunction {b : Bool} {decl decl' : FunctionDecl} (h : decl.Like L b bs decl') :
    Steps S w bs Same (makeFunction decl) (makeFunction decl') := by
  refine steps_here.bind fun w₁ here here' _ hhere => ?_
  have hclosure : Closure.Like S w₁ ⟨decl, here, false⟩ ⟨decl', here', false⟩ :=
    ⟨rfl, b, bs, hhere, h⟩
  refine (steps_allocate fun w₂ s s' hw hs => hs.addFunction (hclosure.mono hw)).andThen
    fun ref _ => ?_
  exact .pure fun _ => rfl

theorem like_methodBindings {here here' : Ref .frames} (hhere : S.Marked w here here' bs)
    {methods methods' : List FunctionDecl} (h : FunctionsLike L (false :: bs) methods methods') :
    methodsLike S w (methodBindings here methods) (methodBindings here' methods') := by
  -- the fold starts from any methods that are bound already
  have hfold : ∀ {fs fs' : List FunctionDecl} {b b' : Bindings Closure},
      FunctionsLike L (false :: bs) fs fs' → methodsLike S w b b' →
      methodsLike S w
        (fs.foldl (fun (b : Bindings Closure) decl =>
          b.insert decl.displayName ⟨decl, here, decl.displayName = initializerName⟩) b)
        (fs'.foldl (fun (b : Bindings Closure) decl =>
          b.insert decl.displayName ⟨decl, here', decl.displayName = initializerName⟩) b') := by
    intro fs
    induction fs with
    | nil =>
      intro fs' b b' hfs hb
      cases hfs
      exact hb
    | cons f fs ih =>
      intro fs' b b' hfs hb
      cases hfs with
      | cons hf hfs =>
        rw [List.foldl_cons, List.foldl_cons, hf.displayName S.named]
        exact ih hfs (hb.insert _ ⟨rfl, bs, hhere, hf⟩)
  exact hfold h .nil

theorem steps_makeClass {name name' : Token} (hname : name'.lexeme = name.lexeme)
    {methods methods' : List FunctionDecl}
    (hmethods : FunctionsLike L (false :: bs) methods methods') :
    Steps S w bs Same (makeClass name methods) (makeClass name' methods') := by
  refine steps_here.bind fun w₁ here here' _ hhere => ?_
  have hclass : ClassInfo.Like S w₁ ⟨name.lexeme, methodBindings here methods⟩
      ⟨name'.lexeme, methodBindings here' methods'⟩ := ⟨hname, like_methodBindings hhere hmethods⟩
  refine (steps_allocate fun w₂ s s' hw hs => hs.addClass (hclass.mono hw)).andThen fun ref _ => ?_
  exact .pure fun _ => rfl

/-- The frame of the receiver stands for a scope without a mark. -/
theorem steps_bindMethod {method method' : Closure} (h : method.LikeMethod S w method')
    (receiver : Ref .instances) :
    Steps S w bs (Closure.Like S) (bindMethod method receiver) (bindMethod method' receiver) := by
  obtain ⟨cs, hmarked, hdecl⟩ := h.decl
  unfold bindMethod
  refine (steps_addFrame hmarked (S.bound_self _)).bind fun w₁ frame frame' _ hframe => ?_
  exact .pure fun hw => ⟨h.isInitializer, false, false :: cs, S.marked_mono hframe hw, hdecl⟩

theorem steps_property (receiver : Ref .instances) {name name' : Token}
    (hname : L.token name name') :
    Steps S w bs Same (property receiver name) (property receiver name') := by
  refine (steps_withStore (A := Same) fun w₁ s s' hs => (hs.instanceAt receiver).symm).andThen
    fun inst _ => ?_
  rw [S.lexeme hname]
  cases inst.fields.find? name.lexeme with
  | some value => exact .pure fun _ => rfl
  | none =>
    refine (steps_withStore fun w₁ s s' hs => hs.classes inst.classRef).bind
      fun w₁ info info' _ hinfo => ?_
    have hfound := hinfo.methods.find? name.lexeme
    generalize info.methods.find? name.lexeme = found at hfound ⊢
    generalize info'.methods.find? name.lexeme = found' at hfound ⊢
    cases hfound with
    | none => exact steps_fail hname _
    | some hmethod =>
      refine (steps_bindMethod hmethod receiver).bind fun w₂ bound bound' _ hbound => ?_
      refine (steps_allocate fun w₃ s s' hw hs => hs.addFunction (hbound.mono hw)).andThen
        fun ref _ => ?_
      exact .pure fun _ => rfl

theorem steps_arrayAt {t t' : Token} (ht : L.token t t') (v : Value) :
    Steps S w bs Same (arrayAt t v) (arrayAt t' v) := by
  cases v with
  | array a => exact .pure fun _ => rfl
  | _ => exact steps_fail ht _

theorem steps_keyAt {t t' : Token} (ht : L.token t t') (v : Value) :
    Steps S w bs Same (keyAt t v) (keyAt t' v) := by
  unfold keyAt
  cases v.key? with
  | some key => exact .pure fun _ => rfl
  | none => exact steps_fail ht _

theorem steps_checkArity {t t' : Token} (ht : L.token t t') (expected got : Nat) :
    Steps S w bs Same (checkArity t expected got) (checkArity t' expected got) :=
  .ite (.pure fun _ => rfl) (steps_fail ht _)

theorem steps_callBuiltin (b : Builtin) {t t' : Token} (ht : L.token t t') (vs : List Value) :
    Steps S w bs Same (callBuiltin b t vs) (callBuiltin b t' vs) := by
  intro w₁ m m' hw hm
  have hended := blind_call b vs w bs w₁ m m' hw hm
  unfold callBuiltin
  generalize b.call vs m = result at hended ⊢
  generalize b.call vs m' = result' at hended ⊢
  cases hended with
  | ok hw₁ ha hm => exact .ok hw₁ ha hm
  | error hw₁ he hm =>
    subst he
    exact .error hw₁ (.failed (S.fault ht _)) hm
  | quit he => exact he.elim

/-- The parameters of a function are bound in a frame with the mark of its scope. -/
theorem steps_callFrame {r r' : Ref .frames} {cs : List Bool} (hr : S.Marked w r r' cs) {c : Bool}
    {params params' : List Token} (hparams : List.Forall₂ (L.binder c) params params')
    (vs : List Value) {f f' : Closure} (hf : f.frame = r) (hf' : f'.frame = r')
    (hfs : f.decl.params = params) (hfs' : f'.decl.params = params') :
    Steps S w bs (fun w₁ g g' => S.Marked w₁ g g' (c :: cs)) (callFrame f vs)
      (callFrame f' vs) := by
  have hbindings : ∀ {params params' : List Token} (vs : List Value) (x x' : Bindings Value),
      List.Forall₂ (L.binder c) params params' → S.Bound c x x' →
      S.Bound c
        ((params.zip vs).foldl (fun (b : Bindings Value) (p : Token × Value) =>
          b.insert p.1.lexeme p.2) x)
        ((params'.zip vs).foldl (fun (b : Bindings Value) (p : Token × Value) =>
          b.insert p.1.lexeme p.2) x') := by
    intro params params' vs x x' h hx
    induction h generalizing vs x x' with
    | nil => exact hx
    | cons ht _ ih =>
      cases vs with
      | nil => exact hx
      | cons v vs =>
        simp only [List.zip_cons_cons, List.foldl_cons]
        exact ih vs _ _ (S.bound_insert hx ht v)
  unfold callFrame
  rw [hf, hf', hfs, hfs']
  exact steps_addFrame hr (hbindings vs [] [] hparams (S.bound_nil c))

theorem steps_callResult {c c' : Closure} (hc : c.Like S w c') {t t' : Token} (ht : L.token t t')
    (flow : Flow) : Steps S w bs Same (callResult c t flow) (callResult c' t' flow) := by
  obtain ⟨b, cs, hmarked, -⟩ := hc.decl
  unfold callResult
  rw [hc.isInitializer]
  refine .ite ?_ ?_
  · have hreceiver : Steps S w bs Same (withStore fun s => s.lookupAt? c.frame 0 selfName)
        (withStore fun s => s.lookupAt? c'.frame 0 selfName) := by
      intro w₁ m m' hw hm
      exact .ok (S.refl _) (S.receiver hm.store.frames (S.marked_mono hmarked hw)).symm hm
    refine hreceiver.andThen fun receiver? _ => ?_
    cases receiver? with
    | some receiver => exact .pure fun _ => rfl
    | none => exact parallel_throw (.failed (S.noReceiver ht))
  · cases flow with
    | result v => exact .pure fun _ => rfl
    | _ => exact .pure fun _ => rfl

end Actions

/-! ### Evaluations -/

/-- With this much fuel on either side, evaluations of trees of one shape take place in parallel. -/
structure StepsParallel (S : Scheme L) (n n' : Nat) : Prop where
  exec : ∀ {w bs s s'}, s.Like L bs s' → Steps S w bs Same (exec n s) (exec n' s')
  execAll : ∀ {w bs ss ss'}, StmtsLike L bs ss ss' →
    Steps S w bs Same (execAll n ss) (execAll n' ss')
  execLoop : ∀ {w bs test test' body body'}, test.Like L bs test' → body.Like L bs body' →
    Steps S w bs Same (execLoop n test body none) (execLoop n' test' body' none)
  execLoopStep : ∀ {w b bs test test' body body' step step'}, test.Like L bs test' →
    body.Like L bs body' → step.Like L (b :: bs) step' →
    Steps S w bs Same (Machine.execLoop n test body (some step))
      (Machine.execLoop n' test' body' (some step'))
  eval : ∀ {w bs e e'}, e.Like L bs e' → Steps S w bs Same (eval n e) (eval n' e')
  evalAll : ∀ {w bs es es'}, ExprsLike L bs es es' →
    Steps S w bs Same (evalAll n es) (evalAll n' es')
  call : ∀ {w bs} v {t t'} vs, L.token t t' → Steps S w bs Same (call n v t vs) (call n' v t' vs)
  apply : ∀ {w bs c c' t t'} vs, c.Like S w c' → L.token t t' →
    Steps S w bs Same (apply n c t vs) (apply n' c' t' vs)

theorem stepsParallel_zero {n' : Nat} (hn : S.Fuel 0 n') : StepsParallel S 0 n' := by
  rcases hn with rfl | ⟨hpatient, -⟩
  · constructor
    all_goals
      intros
      exact steps_outOfFuel
  · constructor
    all_goals
      intros
      exact steps_quit hpatient

namespace StepsParallel

variable {n n' : Nat} (h : StepsParallel S n n') {w : S.World} {bs : List Bool}

include h

theorem exec_succ {s s' : Stmt} (hs : s.Like L bs s') :
    Steps S w bs Same (Machine.exec (n + 1) s) (Machine.exec (n' + 1) s') := by
  unfold Machine.exec
  cases hs with
  | expression he => exact (h.eval he).andThen fun _ _ => .pure fun _ => rfl
  | print he =>
    refine (h.eval he).andThen fun v _ => ?_
    have hprinted : ∀ w₁ s s', s.Like S w₁ s' → printed s v = printed s' v := by
      intro w₁ s s' hs
      cases v with
      | string text => rfl
      | _ => exact (hs.text _).symm
    refine (steps_withStore hprinted).andThen fun text _ => ?_
    exact (steps_write text).andThen fun _ _ => .pure fun _ => rfl
  | var hname => exact (steps_define hname _).andThen fun _ _ => .pure fun _ => rfl
  | varValue hname he =>
    refine (h.eval he).andThen fun v _ => ?_
    exact (steps_define hname v).andThen fun _ _ => .pure fun _ => rfl
  | @block b bs _ _ hss => exact steps_inNewFrame b fun w₁ => h.execAll hss
  | ifThen htest hyes =>
    exact (h.eval htest).andThen fun v _ => .ite (h.exec hyes) (.pure fun _ => rfl)
  | ifElse htest hyes hno =>
    exact (h.eval htest).andThen fun v _ => .ite (h.exec hyes) (h.exec hno)
  | loop htest hbody => exact h.execLoop htest hbody
  | loopStep htest hbody hstep => exact h.execLoopStep htest hbody hstep
  | exitLoop => exact .pure fun _ => rfl
  | nextIteration => exact .pure fun _ => rfl
  | @function _ decl _ hname hf =>
    refine (steps_makeFunction hf).andThen fun f _ => ?_
    rw [hf.displayName S.named]
    have hnamed : L.unnamed (innermost bs) ∨
        ∃ n n', L.named (innermost bs) n n' ∧ n.lexeme = decl.displayName := by
      by_cases hnone : decl.name? = none
      · exact .inl (hname hnone)
      · exact .inr (hf.named hnone)
    exact (steps_define_named hnamed f).andThen fun _ _ => .pure fun _ => rfl
  | result => exact .pure fun _ => rfl
  | resultValue _ he => exact (h.eval he).andThen fun v _ => .pure fun _ => rfl
  | @classDecl _ name _ _ _ hname hfs =>
    refine (steps_makeClass (S.named hname) hfs).andThen fun c _ => ?_
    rw [S.named hname]
    exact (steps_define_named (.inr ⟨_, _, hname, rfl⟩) c).andThen fun _ _ => .pure fun _ => rfl

theorem execAll_succ {ss ss' : List Stmt} (hss : StmtsLike L bs ss ss') :
    Steps S w bs Same (Machine.execAll (n + 1) ss) (Machine.execAll (n' + 1) ss') := by
  unfold Machine.execAll
  cases hss with
  | nil => exact .pure fun _ => rfl
  | cons hs hss =>
    refine (h.exec hs).andThen fun flow _ => ?_
    cases flow with
    | normal => exact h.execAll hss
    | _ => exact .pure fun _ => rfl

theorem execLoop_succ {test test' : Expr} {body body' : Stmt} (htest : test.Like L bs test')
    (hbody : body.Like L bs body') :
    Steps S w bs Same (Machine.execLoop (n + 1) test body none)
      (Machine.execLoop (n' + 1) test' body' none) := by
  unfold Machine.execLoop
  refine (h.eval htest).andThen fun v _ => .ite ?_ (.pure fun _ => rfl)
  refine (h.exec hbody).andThen fun flow _ => ?_
  cases flow with
  | normal => exact h.execLoop htest hbody
  | nextIteration => exact h.execLoop htest hbody
  | exitLoop => exact .pure fun _ => rfl
  | result v => exact .pure fun _ => rfl

theorem execLoopStep_succ {b : Bool} {test test' : Expr} {body body' step step' : Stmt}
    (htest : test.Like L bs test') (hbody : body.Like L bs body')
    (hstep : step.Like L (b :: bs) step') :
    Steps S w bs Same (Machine.execLoop (n + 1) test body (some step))
      (Machine.execLoop (n' + 1) test' body' (some step')) := by
  unfold Machine.execLoop
  refine (h.eval htest).andThen fun v _ => .ite ?_ (.pure fun _ => rfl)
  refine (h.exec hbody).andThen fun flow _ => ?_
  cases flow with
  | normal => exact h.execLoopStep htest hbody hstep
  | exitLoop => exact .pure fun _ => rfl
  | nextIteration =>
    refine (steps_inNewFrame b fun w₁ => h.execAll (.cons hstep .nil)).andThen fun _ _ => ?_
    exact h.execLoopStep htest hbody hstep
  | result v => exact .pure fun _ => rfl

/-- Index expressions look up what they mean once their parts have values. -/
theorem eval_index {t t' : Token} {base base' key key' : Expr} (ht : L.token t t')
    (hbase : base.Like L bs base') (hkey : key.Like L bs key') :
    Steps S w bs Same (Machine.eval (n + 1) (.index t base key))
      (Machine.eval (n' + 1) (.index t' base' key')) := by
  unfold Machine.eval
  refine (h.eval hbase).andThen fun base _ => ?_
  refine (h.eval hkey).andThen fun key _ => ?_
  refine (steps_arrayAt ht base).andThen fun a _ => ?_
  refine (steps_keyAt ht key).andThen fun k _ => ?_
  refine (steps_withStore (A := Same) fun w₁ s s' hs => by rw [hs.table]).andThen fun found _ => ?_
  cases found with
  | some v => exact .pure fun _ => rfl
  | none => exact steps_fail ht _

theorem eval_indexSet {t t' : Token} {base base' key key' e e' : Expr} (ht : L.token t t')
    (hbase : base.Like L bs base') (hkey : key.Like L bs key') (he : e.Like L bs e') :
    Steps S w bs Same (Machine.eval (n + 1) (.indexSet t base key e))
      (Machine.eval (n' + 1) (.indexSet t' base' key' e')) := by
  unfold Machine.eval
  refine (h.eval hbase).andThen fun base _ => ?_
  refine (h.eval hkey).andThen fun key _ => ?_
  refine (h.eval he).andThen fun v _ => ?_
  refine (steps_arrayAt ht base).andThen fun a _ => ?_
  refine (steps_keyAt ht key).andThen fun k _ => ?_
  exact (steps_changeStore fun w₁ s s' hs => hs.putEntry a k v).andThen
    fun _ _ => .pure fun _ => rfl

theorem eval_set {object object' : Expr} {name name' : Token} {e e' : Expr}
    (hobject : object.Like L bs object') (hname : L.token name name') (he : e.Like L bs e') :
    Steps S w bs Same (Machine.eval (n + 1) (.set object name e))
      (Machine.eval (n' + 1) (.set object' name' e')) := by
  unfold Machine.eval
  refine (h.eval hobject).andThen fun object _ => ?_
  cases object with
  | instanceRef i =>
    refine (h.eval he).andThen fun v _ => ?_
    rw [S.lexeme hname]
    exact (steps_changeStore fun w₁ s s' hs => hs.setField i _ v).andThen
      fun _ _ => .pure fun _ => rfl
  | _ => exact steps_fail hname _

theorem eval_succ {e e' : Expr} (he : e.Like L bs e') :
    Steps S w bs Same (Machine.eval (n + 1) e) (Machine.eval (n' + 1) e') := by
  cases he with
  | index ht hbase hkey => exact h.eval_index ht hbase hkey
  | indexSet ht hbase hkey he => exact h.eval_indexSet ht hbase hkey he
  | set hobject hname he => exact h.eval_set hobject hname he
  | literal =>
    unfold Machine.eval
    exact .pure fun _ => rfl
  | group he =>
    unfold Machine.eval
    exact h.eval he
  | unary ho he =>
    unfold Machine.eval
    refine (h.eval he).andThen fun v _ => ?_
    simp only [Operator.unary, S.kind ho]
    exact steps_orFail ho _
  | binary hl ho hr =>
    unfold Machine.eval
    refine (h.eval hl).andThen fun l _ => ?_
    refine (h.eval hr).andThen fun r _ => ?_
    refine (steps_withStore fun w₁ s s' hs => (hs.binary ho l r).symm).andThen fun result _ => ?_
    exact steps_orFail ho result
  | logical hl ho hr =>
    unfold Machine.eval
    refine (h.eval hl).andThen fun l _ => ?_
    simp only [S.keyword ho]
    exact .ite (.pure fun _ => rfl) (h.eval hr)
  | conditional htest hyes hno =>
    unfold Machine.eval
    exact (h.eval htest).andThen fun v _ => .ite (h.eval hyes) (h.eval hno)
  | var hname =>
    unfold Machine.eval
    exact steps_readName hname
  | self hkeyword =>
    unfold Machine.eval
    exact steps_readName hkeyword
  | assign hname he =>
    unfold Machine.eval
    refine (h.eval he).andThen fun v _ => ?_
    exact (steps_assignName hname v).andThen fun _ _ => .pure fun _ => rfl
  | call hf hparen hes =>
    unfold Machine.eval
    refine (h.eval hf).andThen fun f _ => ?_
    refine (h.evalAll hes).andThen fun vs _ => ?_
    exact h.call f vs hparen
  | lambda hf =>
    unfold Machine.eval
    exact steps_makeFunction hf
  | array _ hes =>
    unfold Machine.eval
    refine (h.evalAll hes).andThen fun vs _ => ?_
    refine (steps_allocate fun w₁ s s' _ hs => hs.addArray _).andThen fun ref _ => ?_
    exact .pure fun _ => rfl
  | get he hname =>
    unfold Machine.eval
    refine (h.eval he).andThen fun object _ => ?_
    cases object with
    | instanceRef i => exact steps_property i hname
    | _ => exact steps_fail hname _

theorem evalAll_succ {es es' : List Expr} (hes : ExprsLike L bs es es') :
    Steps S w bs Same (Machine.evalAll (n + 1) es) (Machine.evalAll (n' + 1) es') := by
  unfold Machine.evalAll
  cases hes with
  | nil => exact .pure fun _ => rfl
  | cons he hes =>
    refine (h.eval he).andThen fun v _ => ?_
    exact (h.evalAll hes).andThen fun vs _ => .pure fun _ => rfl

theorem call_succ (v : Value) {t t' : Token} (vs : List Value) (ht : L.token t t') :
    Steps S w bs Same (Machine.call (n + 1) v t vs) (Machine.call (n' + 1) v t' vs) := by
  unfold Machine.call
  cases v with
  | function f =>
    refine (steps_withStore fun w₁ s s' hs => hs.functions f).bind fun w₁ c c' _ hc => ?_
    obtain ⟨b, cs, -, hdecl⟩ := hc.decl
    rw [hdecl.arity]
    exact (steps_checkArity ht _ _).andThen fun _ hw => h.apply vs (hc.mono hw) ht
  | builtin b => exact steps_callBuiltin b ht vs
  | classRef k =>
    refine (steps_withStore fun w₁ s s' hs => hs.classes k).bind fun w₁ info info' _ hinfo => ?_
    have hfound := hinfo.methods.find? initializerName
    dsimp only
    generalize info.methods.find? initializerName = found at hfound ⊢
    generalize info'.methods.find? initializerName = found' at hfound ⊢
    have harity : (found'.map fun c => c.decl.arity) = found.map fun c => c.decl.arity := by
      cases hfound with
      | none => rfl
      | some hc =>
        obtain ⟨cs, -, hdecl⟩ := hc.decl
        exact congrArg some hdecl.arity
    rw [harity]
    refine (steps_checkArity ht _ _).andThen fun {w₂} _ hw₂ => ?_
    refine (steps_allocate fun w₃ s s' _ hs => hs.addInstance k).andThen fun {w₃} receiver hw₃ => ?_
    cases hfound with
    | none => exact .pure fun _ => rfl
    | some hc =>
      have hmethod := hc.mono (S.trans hw₂ hw₃)
      refine (steps_bindMethod hmethod receiver).bind fun w₄ bound bound' _ hbound => ?_
      exact (h.apply vs hbound ht).andThen fun _ _ => .pure fun _ => rfl
  | _ => exact steps_fail ht _

theorem apply_succ {c c' : Closure} {t t' : Token} (vs : List Value) (hc : c.Like S w c')
    (ht : L.token t t') :
    Steps S w bs Same (Machine.apply (n + 1) c t vs) (Machine.apply (n' + 1) c' t' vs) := by
  obtain ⟨b, cs, hmarked, hdecl⟩ := hc.decl
  unfold Machine.apply
  generalize hd : c.decl = decl at hdecl
  generalize hd' : c'.decl = decl' at hdecl
  cases hdecl with
  | mk _ hparams hbody =>
    refine (steps_callFrame hmarked hparams vs rfl rfl (by rw [hd]) (by rw [hd'])).bind
      fun w₁ frame frame' hw₁ hframe => ?_
    refine (steps_inFrame hframe (h.execAll hbody)).andThen fun flow hw₂ => ?_
    exact steps_callResult (hc.mono (S.trans hw₁ hw₂)) ht flow

end StepsParallel

theorem stepsParallel {n n' : Nat} (hn : S.Fuel n n') : StepsParallel S n n' := by
  induction n generalizing n' with
  | zero => exact stepsParallel_zero hn
  | succ n ih =>
    obtain ⟨k, rfl, hk⟩ : ∃ k, n' = k + 1 ∧ S.Fuel n k := by
      rcases hn with rfl | ⟨hpatient, hle⟩
      · exact ⟨n, rfl, .inl rfl⟩
      · exact ⟨n' - 1, by omega, .inr ⟨hpatient, by omega⟩⟩
    have h := ih hk
    exact
      { exec := h.exec_succ
        execAll := h.execAll_succ
        execLoop := h.execLoop_succ
        execLoopStep := h.execLoopStep_succ
        eval := h.eval_succ
        evalAll := h.evalAll_succ
        call := h.call_succ
        apply := h.apply_succ }

/-- **Programs of one shape are run in parallel**, under any scheme by which their names
correspond. -/
theorem execProgram_like (fuel : Nat) {w : S.World} {bs : List Bool} {program program' : List Stmt}
    (h : StmtsLike L bs program program') :
    Steps S w bs (fun _ _ _ => True) (execProgram fuel program) (execProgram fuel program') := by
  induction program generalizing w program' with
  | nil =>
    cases h
    exact .pure fun _ => trivial
  | cons s ss ih =>
    cases h with
    | cons hs hss => exact ((stepsParallel (.inl rfl)).exec hs).andThen fun _ _ => ih hss

end Machine

end Roteiro
