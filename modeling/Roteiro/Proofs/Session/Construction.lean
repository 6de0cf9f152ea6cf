import Roteiro.Proofs.Session.Receiver
import Roteiro.Proofs.Session.References

/-!
# Construction

A class that is called makes a new instance, and gives it whatever the initializer does. An
initializer that a program has looked up gives the instance it was looked up on, wherever it has
been kept meanwhile and however its body ends.

* `call_classRef`: what a call to a class gives.
* `Since.initializer`: an initializer that was looked up knows its receiver for good.
* `Since.applies`: however the body of an initializer ends, the receiver is found.
* `Since.constructs`: calls to classes and initializers, in all the past of a session.
-/

namespace Roteiro

open Scope Machine

namespace Machine

theorem checkArity_ok {paren : Token} {expected got : Nat} {m m' : Machine}
    (h : checkArity paren expected got m = .ok () m') : expected = got ∧ m' = m := by
  unfold checkArity at h
  split at h
  · next heq =>
    cases h
    exact ⟨heq, rfl⟩
  · cases h

/-- A class that is called gives the new instance, if it gives anything. -/
theorem call_classRef {n : Nat} {k : Ref .classes} {paren : Token} {vs : List Value}
    {m m' : Machine} {v : Value} (h : call n (.classRef k) paren vs m = .ok v m') :
    v = .instanceRef (m.store.addInstance k).1 ∧
      (m.store.addInstance k).2.Persists m'.store := by
  cases n with
  | zero => cases h
  | succ n =>
    unfold call at h
    obtain ⟨info, m₁, hinfo, h⟩ := bind_ok h
    cases hinfo
    obtain ⟨_, m₁, harity, h⟩ := bind_ok h
    obtain ⟨-, rfl⟩ := checkArity_ok harity
    obtain ⟨receiver, m₂, hreceiver, h⟩ := bind_ok h
    cases hreceiver
    cases hmethod : (m₁.store.classInfo k).methods.find? initializerName with
    | some initializer =>
      -- what the initializer gives is thrown away; only what it does to the store counts
      rw [hmethod] at h
      change (apply n (m₁.boundInitializer k initializer).1 paren vs >>= fun _ =>
        pure (Value.instanceRef (m₁.store.addInstance k).1)) (m₁.boundInitializer k initializer).2 =
          .ok v m' at h
      obtain ⟨w, m₂, happly, h⟩ := bind_ok h
      cases h
      have hrun := steady_persists.ran n (.apply (m₁.boundInitializer k initializer).1 paren vs)
        (m₁.boundInitializer k initializer).2
      rw [final, Task.run, happly] at hrun
      exact ⟨rfl, (Store.Persists.of_frames _ _).trans hrun⟩
    | none =>
      rw [hmethod] at h
      cases h
      exact ⟨rfl, .refl _⟩

/-- A function that is called gives what its body leads to, if it gives anything. -/
theorem call_function {n : Nat} {f : Ref .functions} {paren : Token} {vs : List Value}
    {m m' : Machine} {v : Value} (h : call n (.function f) paren vs m = .ok v m') :
    ∃ k, n = k + 2 ∧ (m.store.closure f).decl.arity = vs.length ∧
      apply (k + 1) (m.store.closure f) paren vs m = .ok v m' := by
  cases n with
  | zero => cases h
  | succ n =>
    unfold call at h
    obtain ⟨c, m₁, hc, h⟩ := bind_ok h
    cases hc
    obtain ⟨_, m₁, harity, h⟩ := bind_ok h
    obtain ⟨harity, rfl⟩ := checkArity_ok harity
    cases n with
    | zero => cases h
    | succ n => exact ⟨n, rfl, harity, h⟩

/-- What is found in an instance that has no such field is a method that knows the instance. -/
theorem eval_get_method {n : Nat} {object : Expr} {name : Token} {r : Ref .instances} {v : Value}
    {m m₁ m₂ : Machine} (hobject : eval n object m = .ok (.instanceRef r) m₁)
    (hfield : (m₁.store.instanceAt r).fields.find? name.lexeme = none)
    (h : eval (n + 1) (.get object name) m = .ok v m₂) :
    ∃ method, (m₁.store.classInfo (m₁.store.instanceAt r).classRef).methods.find? name.lexeme =
        some method ∧
      v = .function ⟨m₁.store.functions.size⟩ ∧
      m₂.store.functions =
        m₁.store.functions.push { method with frame := ⟨m₁.store.frames.size⟩ } := by
  have hproperty : property r name m₁ = .ok v m₂ := by
    unfold eval at h
    simpa only [Bind.bind, EStateM.bind, hobject] using h
  cases hmethod : (m₁.store.classInfo
      (m₁.store.instanceAt r).classRef).methods.find? name.lexeme with
  | some method =>
    rw [property_method hfield hmethod] at hproperty
    cases hproperty
    exact ⟨method, rfl, rfl, rfl⟩
  | none =>
    simp only [property, withStore, Bind.bind, EStateM.bind, hfield, hmethod] at hproperty
    cases hproperty

end Machine

namespace Session

variable {host : Host} {s : Session} {past : List Played}

/-- `Initializer past f r`: the function `f` is what a program got when it looked up the initializer
of the instance `r`. A field of that name would have been found instead. -/
inductive Initializer (past : List Played) (f : Ref .functions) (r : Ref .instances) : Prop
  | lookup {n : Nat} {object : Expr} {name : Token} {m m₁ m₂ : Machine}
    (hvisited : Visited past ⟨n + 1, .eval (.get object name), m⟩)
    (hname : name.lexeme = initializerName)
    (hobject : eval n object m = .ok (.instanceRef r) m₁)
    (hfield : (m₁.store.instanceAt r).fields.find? name.lexeme = none)
    (hfound : eval (n + 1) (.get object name) m = .ok (.function f) m₂) : Initializer past f r

/-- `Constructed k s s' r`: between the stores `s` and `s'`, the instance `r` of the class `k` has
been made. -/
structure Constructed (k : Ref .classes) (s s' : Store) (r : Ref .instances) : Prop where
  /-- The class is in the store, and has not changed. -/
  known : ∃ info, s.classes[k.index]? = some info ∧ s'.classes[k.index]? = some info
  made : ∃ x, s'.instances[r.index]? = some x ∧ x.classRef = k
  /-- It is none of the instances that there were. -/
  new : ∀ r' : Ref .instances, r'.index < s.instances.size → r' ≠ r
  /-- Those are all the instances that anything in the store could lead to. -/
  closed : s.Closed

/-- **What is looked up is an initializer that knows its receiver**, and stays so. -/
theorem Since.initializer (h : Since host s past) {f : Ref .functions} {r : Ref .instances}
    (hf : Initializer past f r) :
    f.index < s.machine.store.functions.size ∧
      (s.machine.store.closure f).isInitializer = true ∧
      Received (Visited past) (s.machine.store.closure f).frame r
        (s.machine.store.closure f).decl := by
  obtain @⟨n, object, name, m, m₁, m₂, hvisited, hname, hobject, hfield, hfound⟩ := hf
  obtain ⟨method, hmethod, heq, hfunctions⟩ := eval_get_method hobject hfield hfound
  cases heq
  -- what is made by the lookup is still there
  have hmade : m₂.store.functions[m₁.store.functions.size]? =
      some { method with frame := ⟨m₁.store.frames.size⟩ } := by
    rw [hfunctions]
    exact Array.getElem?_push_size
  have hpersists := h.persists _ hvisited
  rw [(eval_ended hfound).1] at hpersists
  have hkept := hpersists.functions hmade
  have hclosure : s.machine.store.closure ⟨m₁.store.functions.size⟩ =
      { method with frame := ⟨m₁.store.frames.size⟩ } := by
    rw [Store.closure, Array.getD_eq_getD_getElem?, hkept, Option.getD_some]
  -- and so is the class of the instance, where the name has made the method an initializer
  have hpersists₁ := h.persists _ (hvisited.within .getObject)
  rw [(eval_ended hobject).1] at hpersists₁
  obtain ⟨info, hinfo, hmem⟩ := class_of_mem_methods (mem_of_find? hmethod)
  have hinit : method.isInitializer = true := by
    rw [h.prepared.1.methods info (Array.mem_of_getElem? (hpersists₁.classes hinfo)) _ hmem, hname]
    exact decide_eq_true rfl
  rw [hclosure]
  exact ⟨(Array.getElem?_eq_some_iff.mp hkept).1, hinit,
    ⟨_, method, hvisited, .property hobject hfield hmethod, rfl⟩⟩

/-- **However the body of an initializer ends, its receiver is found and given back.** -/
theorem Since.applies (h : Since host s past) {n : Nat} {c : Closure} {paren : Token}
    {vs : List Value} {m : Machine} (hM : Visited past ⟨n + 1, .apply c paren vs, m⟩)
    (hinit : c.isInitializer = true) :
    ∃ r, Received (Visited past) c.frame r c.decl ∧ ∀ flow m₁,
      execAll n c.decl.body (m.enter c.frame (argumentBindings c vs)) = .ok flow m₁ →
      m₁.store.lookupAt? c.frame 0 selfName = some (.instanceRef r) ∧
      apply (n + 1) c paren vs m = .ok (.instanceRef r) { m₁ with current := m.current } := by
  obtain ⟨r, hr⟩ := (h.prepared.2 _ hM).callee c paren vs rfl hinit
  refine ⟨r, hr.received, fun flow m₁ hbody => ?_⟩
  -- the body leaves the receiver where it is
  have hcontinues := (h.settled.inPlace _ (hM.within .body)).continues fun hV hin => hV.within hin
  rw [(execAll_ended hbody).1] at hcontinues
  have hr₁ := (hr.grows (.addFrame m.store c.frame _)).grows hcontinues.grows
  rw [apply_eq, hbody]
  exact callResult_boundTo (m := { m₁ with current := m.current }) hinit hr₁ paren flow

/-- An initializer that gives anything gives its receiver. -/
theorem Since.apply_initializer (h : Since host s past) {n : Nat} {c : Closure} {paren : Token}
    {vs : List Value} {m m' : Machine} {v : Value}
    (hM : Visited past ⟨n + 1, .apply c paren vs, m⟩) (hinit : c.isInitializer = true)
    (hrun : apply (n + 1) c paren vs m = .ok v m') :
    ∃ r, Received (Visited past) c.frame r c.decl ∧ v = .instanceRef r := by
  obtain ⟨r, hreceived, hends⟩ := h.applies hM hinit
  refine ⟨r, hreceived, ?_⟩
  rw [apply_eq] at hrun
  cases hbody : execAll n c.decl.body (m.enter c.frame (argumentBindings c vs)) with
  | ok flow m₁ =>
    have hgiven := (hends flow m₁ hbody).2
    rw [apply_eq, hbody] at hgiven
    rw [hbody, hgiven] at hrun
    cases hrun
    rfl
  | error e m₁ =>
    rw [hbody] at hrun
    cases hrun

/-- A class that gives anything gives an instance that it has made. -/
theorem Since.constructed (h : Since host s past) {n : Nat} {k : Ref .classes} {paren : Token}
    {vs : List Value} {m m' : Machine} {v : Value}
    (hM : Visited past ⟨n, .call (.classRef k) paren vs, m⟩)
    (hrun : call n (.classRef k) paren vs m = .ok v m') :
    ∃ r, v = .instanceRef r ∧ Constructed k m.store m'.store r := by
  obtain ⟨hclosed, hclass, -⟩ := h.closed.2 _ hM
  obtain ⟨rfl, hpersists⟩ := call_classRef hrun
  have hknown : m.store.classes[k.index]? = some m.store.classes[k.index] :=
    Array.getElem?_eq_getElem hclass
  -- the new instance is behind all others, and nothing that has happened since took it away
  refine ⟨_, rfl, ⟨_, hknown, hpersists.classes hknown⟩, ?_, fun r' hr' heq => ?_, hclosed⟩
  · exact hpersists.instances (x := ⟨k, []⟩) Array.getElem?_push_size
  · rw [heq] at hr'
    exact Nat.lt_irrefl _ hr'

/-- An initializer that was looked up, and gives anything, gives the instance it was looked up
on. -/
theorem Since.initialized (h : Since host s past) {f : Ref .functions} {r : Ref .instances}
    (hf : Initializer past f r) {n : Nat} {paren : Token} {vs : List Value} {m m' : Machine}
    {v : Value} (hM : Visited past ⟨n, .call (.function f) paren vs, m⟩)
    (hrun : call n (.function f) paren vs m = .ok v m') : v = .instanceRef r := by
  obtain ⟨k, rfl, harity, happly⟩ := call_function hrun
  obtain ⟨-, hinit, hreceived⟩ := h.initializer hf
  -- the function that is called is the one that was looked up
  have hlt : f.index < m.store.functions.size := (h.closed.2 _ hM).task.1
  have hstill : s.machine.store.closure f = m.store.closure f :=
    ((steady_persists.ran _ _ m).trans (h.persists _ hM)).closure hlt
  rw [hstill] at hinit hreceived
  -- its frame cannot be that of a lookup on another instance
  have hM' := hM.within (.callFunction harity)
  obtain ⟨r', hreceived', rfl⟩ := h.apply_initializer hM' hinit happly
  rw [(h.settled.received_unique hreceived hreceived').1]

/-- **Construction.** Wherever in a session a class is called, the call fails or gives an instance
of the class, which is none of those that there were before. Wherever an initializer is called that
was looked up on an instance, the call fails or gives that instance. And whenever the body of an
initializer has ended, in whatever way, the receiver is found and is what the call gives. -/
theorem Since.constructs (h : Since host s past) :
    (∀ n k paren vs m, Visited past ⟨n, .call (.classRef k) paren vs, m⟩ →
      (∃ halt m', call n (.classRef k) paren vs m = .error halt m') ∨
        ∃ r m', call n (.classRef k) paren vs m = .ok (.instanceRef r) m' ∧
          Constructed k m.store m'.store r) ∧
    (∀ f r, Initializer past f r → ∀ n paren vs m,
      Visited past ⟨n, .call (.function f) paren vs, m⟩ →
      (∃ halt m', call n (.function f) paren vs m = .error halt m') ∨
        ∃ m', call n (.function f) paren vs m = .ok (.instanceRef r) m') ∧
    ∀ n c paren vs m, Visited past ⟨n + 1, .apply c paren vs, m⟩ → c.isInitializer = true →
      ∃ r, Received (Visited past) c.frame r c.decl ∧ ∀ flow m₁,
        execAll n c.decl.body (m.enter c.frame (argumentBindings c vs)) = .ok flow m₁ →
        m₁.store.lookupAt? c.frame 0 selfName = some (.instanceRef r) ∧
        apply (n + 1) c paren vs m = .ok (.instanceRef r) { m₁ with current := m.current } := by
  refine ⟨fun n k paren vs m hM => ?_, fun f r hf n paren vs m hM => ?_,
    fun n c paren vs m hM hinit => h.applies hM hinit⟩
  · cases hrun : call n (.classRef k) paren vs m with
    | error halt m' => exact .inl ⟨halt, m', rfl⟩
    | ok v m' =>
      obtain ⟨r, rfl, hconstructed⟩ := h.constructed hM hrun
      exact .inr ⟨r, m', rfl, hconstructed⟩
  · cases hrun : call n (.function f) paren vs m with
    | error halt m' => exact .inl ⟨halt, m', rfl⟩
    | ok v m' =>
      cases h.initialized hf hM hrun
      exact .inr ⟨m', rfl⟩

/-- An initializer that is called once more. -/
def restarting : String := "classe A { init() { retorne; } } A().init();"

def restartingTokens : List Token :=
  [⟨.classKw, "classe", 1⟩, ⟨.identifier, "A", 1⟩, ⟨.leftBrace, "\x7b", 1⟩,
   ⟨.identifier, "init", 1⟩, ⟨.leftParen, "(", 1⟩, ⟨.rightParen, ")", 1⟩, ⟨.leftBrace, "\x7b", 1⟩,
   ⟨.returnKw, "retorne", 1⟩, ⟨.semicolon, ";", 1⟩, ⟨.rightBrace, "\x7d", 1⟩,
   ⟨.rightBrace, "\x7d", 1⟩, ⟨.identifier, "A", 1⟩, ⟨.leftParen, "(", 1⟩, ⟨.rightParen, ")", 1⟩,
   ⟨.dot, ".", 1⟩, ⟨.identifier, "init", 1⟩, ⟨.leftParen, "(", 1⟩, ⟨.rightParen, ")", 1⟩,
   ⟨.semicolon, ";", 1⟩, ⟨.endOfInput, "", 1⟩]

def restartingInitializer : FunctionDecl :=
  ⟨some ⟨.identifier, "init", 1⟩, [], [.result ⟨.returnKw, "retorne", 1⟩ none]⟩

def restartingObject : Expr := .call (.var 0 ⟨.identifier, "A", 1⟩) ⟨.rightParen, ")", 1⟩ []

def restartingProgram : List Stmt :=
  [.classDecl ⟨.identifier, "A", 1⟩ [restartingInitializer],
    .expression (.call (.get restartingObject ⟨.identifier, "init", 1⟩) ⟨.rightParen, ")", 1⟩ [])]

/-- The session in which it is run. -/
def restartingSession : Session :=
  let started := Session.start (.withInput [])
  ⟨{ started.machine with depths := (Scope.resolve restartingProgram ∅).depths }, 1⟩

theorem accepts_restarting :
    (Session.start (.withInput [])).Accepts restarting restartingProgram restartingSession := by
  have htokens : Token.tokenize restarting = (restartingTokens, []) := by decide +kernel
  constructor
  · rw [htokens]
  · rw [htokens]
    rfl
  · decide +kernel
  · rw [htokens]
    rfl

/-- The class gives an instance, and its initializer gives the same instance again, which it finds
when its body has ended. -/
theorem restarting_constructs :
    let past := [⟨restartingProgram, 12, restartingSession.machine⟩]
    let paren : Token := ⟨.rightParen, ")", 1⟩
    ∃ k f r m m' m₁ m₂, Visited past ⟨8, .call (.classRef k) paren [], m⟩ ∧
      call 8 (.classRef k) paren [] m = .ok (.instanceRef r) m' ∧
      Constructed k m.store m'.store r ∧ Initializer past f r ∧
      Visited past ⟨10, .call (.function f) paren [], m₁⟩ ∧
      call 10 (.function f) paren [] m₁ = .ok (.instanceRef r) m₂ ∧
      ∃ c flow m₃, Visited past ⟨9, .apply c paren [], m₁⟩ ∧ c.isInitializer = true ∧
        execAll 8 c.decl.body (m₁.enter c.frame (argumentBindings c [])) = .ok flow m₃ ∧
        m₃.store.lookupAt? c.frame 0 selfName = some (.instanceRef r) := by
  intro past paren
  have hsince := Since.accepted .start 12 (d := .none) rfl accepts_restarting
  have hvisited : ∀ {M}, Reached 12 restartingProgram restartingSession.machine M →
      Visited past M := fun hM => ⟨_, List.mem_cons_self, hM⟩
  let declared := restartingSession.machine.classDeclared ⟨.identifier, "A", 1⟩
    [restartingInitializer]
  have hcall : Reached 12 restartingProgram restartingSession.machine ⟨11, .eval _, declared⟩ :=
    .later rfl (.here (.step .expression (.refl _)))
  have hget := hcall.within .callee
  have hclass := (hget.within .getObject).within (.call rfl rfl)
  have hagain := hcall.within (.call rfl rfl)
  have happly := hagain.within (.callFunction rfl)
  rcases hsince.constructs.1 _ _ _ _ _ (hvisited hclass) with ⟨_, _, herror⟩ | ⟨r, m', hr, hmade⟩
  · cases herror
  have hobject : eval 9 restartingObject declared = .ok (.instanceRef r) m' := hr
  have hf : Initializer past ⟨0⟩ r := by
    cases hr
    exact .lookup (hvisited hget) rfl hobject rfl rfl
  rcases hsince.constructs.2.1 _ _ hf _ _ _ _ (hvisited hagain) with ⟨_, _, herror⟩ | ⟨m₂, hm₂⟩
  · cases herror
  obtain ⟨r', -, hends⟩ := hsince.constructs.2.2 _ _ _ _ _ (hvisited happly) rfl
  have hresult : some (Value.instanceRef r) = some (Value.instanceRef r') := by
    cases hr
    exact (hends _ _ rfl).1
  refine ⟨_, _, r, _, m', _, m₂, hvisited hclass, hr, hmade, hf, hvisited hagain, hm₂,
    _, _, _, hvisited happly, rfl, rfl, ?_⟩
  rw [hresult]
  exact (hends _ _ rfl).1

end Session

end Roteiro
