import Roteiro.Proofs.Machine.CountedLoop
import Roteiro.Proofs.Machine.Links
import Roteiro.Proofs.Machine.Twins
import Roteiro.Proofs.Session.Restored

/-!
# What counted loops mean

The statement that a counted loop is run as does what the loop does, wherever the parser has
accepted the loop and from every machine that a session may be in. They open different frames, and
so they number the frames differently that a function made in the loop may still lie in. Nothing
else tells their results apart: `Agrees` compares two machines up to such numbers.

* `Session.Reachable.sound`: the machine of a session is sound.
* `countedLoop_means`: what counted loops mean.
-/

namespace Roteiro

open Machine

/-! ### The machines of a session -/

theorem Session.Reachable.sound {host : Host} {s : Session} (h : Reachable host s) :
    s.machine.Sound :=
  h.carry ⟨.initial, Store.Sound.initial.globals⟩ (fun _ _ h => ⟨h.store, h.current⟩)
    fun fuel program h => (h.run fuel program).1

/-! ### Machines that agree -/

/-- The same function, in frames that correspond. -/
structure Closure.Agrees (p : Pairing) (c c' : Closure) : Prop where
  decl : c'.decl = c.decl
  isInitializer : c'.isInitializer = c.isInitializer
  frame : p.Any c.frame c'.frame

/-- Machines that have come from one with the store `s`, and differ at most in how they have
numbered the frames that they have opened since. -/
structure Machine.Agrees (s : Store) (p : Pairing) (m m' : Machine) : Prop where
  /-- A frame that was there before corresponds to itself, so the same names are bound in it, to the
  same values. -/
  old : ∀ r, s.Anchored r → p false r r
  frames : p.Frames m.store m'.store
  current : m'.current = m.current
  depths : m'.depths = m.depths
  host : m'.host = m.host
  arrays : m'.store.arrays = m.store.arrays
  instances : m'.store.instances = m.store.instances
  functions_size : m'.store.functions.size = m.store.functions.size
  functions : ∀ f, (m.store.closure f).Agrees p (m'.store.closure f)
  classes_size : m'.store.classes.size = m.store.classes.size
  classes : ∀ k, (m'.store.classInfo k).name = (m.store.classInfo k).name ∧
    List.Forall₂ (fun q q' => q'.1 = q.1 ∧ q.2.Agrees p q'.2) (m.store.classInfo k).methods
      (m'.store.classInfo k).methods

/-- `Follows s result result'`: unless the first run ran out of fuel, the second one has ended in
the same way, and their machines agree. -/
inductive Follows (s : Store) :
    EStateM.Result Halt Machine Flow → EStateM.Result Halt Machine Flow → Prop
  | ok {p flow m m'} (h : Machine.Agrees s p m m') : Follows s (.ok flow m) (.ok flow m')
  | failed {p e m m'} (h : Machine.Agrees s p m m') :
    Follows s (.error (.failed e) m) (.error (.failed e) m')
  | outOfFuel {m result'} : Follows s (.error .outOfFuel m) result'

/-- Every frame that is there corresponds to itself. -/
def Pairing.self (s : Store) : Pairing := fun b r r' => b = false ∧ r' = r ∧ s.Anchored r

section Agrees

variable {s : Store} {p : Pairing} {m m' : Machine}

theorem Pairing.frames_self (h : s.Sound) : (Pairing.self s).Frames s s where
  lt := by
    rintro b r _ ⟨-, rfl, hr⟩
    exact ⟨hr.lt, hr.lt⟩
  bound := by
    rintro b r _ ⟨rfl, rfl, -⟩
    exact ⟨rfl, fun h => Bool.noConfusion h⟩
  outer := by
    rintro b r _ ⟨-, rfl, hr⟩
    exact List.forall₂_same.mpr fun q hq => ⟨false, rfl, rfl, hr.outer hq⟩
  unique := by
    rintro b r r' q q' ⟨-, hr, -⟩ ⟨hb, hq, -⟩ heq
    subst hr hq
    exact ⟨hb, heq.elim id id, heq.elim id id⟩
  globals := ⟨rfl, rfl, h.globals⟩

/-- A sound machine is like itself. -/
theorem Machine.Sound.like_self (h : m.Sound) : m.Like Pairing.scheme (.self m.store) [] m :=
  h.like_beside (Pairing.frames_self h.store) (fun _ hr => ⟨rfl, rfl, hr⟩) rfl

theorem Likeness.sameCode_coveredBy : Likeness.sameCode.CoveredBy .same := by
  have htoken : ∀ {t t' : Token}, t' = t → t.Twin .same t' := by
    rintro t _ rfl
    exact ⟨rfl, rfl, rfl⟩
  exact ⟨htoken, htoken, fun h => ⟨h.1, htoken h.2⟩, fun h => htoken h.2, fun h => htoken h.2⟩

theorem FunctionDecl.Like.eq {b : Bool} {bs : List Bool} {f f' : FunctionDecl}
    (h : f.Like .sameCode b bs f') : f' = f :=
  FunctionDecl.Twin.eq ⟨id, id⟩ f (FunctionDecl.Like.twin Likeness.sameCode_coveredBy f h)

theorem Machine.Like.agrees {bs : List Bool} (h : m.Like Pairing.scheme p bs m')
    (hcurrent : m'.current = m.current) (hp : (Pairing.self s).Le p) : Machine.Agrees s p m m' where
  old r hr := hp _ _ _ ⟨rfl, rfl, hr⟩
  frames := h.store.frames
  current := hcurrent
  depths := h.depths
  host := h.host
  arrays := h.store.arrays
  instances := h.store.instances
  functions_size := h.store.functions_size
  functions f := by
    obtain ⟨hinitializer, b, cs, hframe, hdecl⟩ := h.store.functions f
    exact ⟨hdecl.eq, hinitializer, _, hframe⟩
  classes_size := h.store.classes_size
  classes k := by
    refine ⟨(h.store.classes k).name, (h.store.classes k).methods.imp fun q q' hq => ?_⟩
    obtain ⟨hinitializer, cs, hframe, hdecl⟩ := hq.2
    exact ⟨hq.1, hdecl.eq, hinitializer, _, hframe⟩

/-- Runs that take place in parallel from a sound machine, and of which one comes back to the frame
it was started in. -/
theorem follows_of_steps {step step' : Run Flow} (hm : m.Sound)
    (h : Steps Pairing.scheme (.self m.store) [] Same step step')
    (hback : (final step m).current = m.current ∨ (final step' m).current = m.current) :
    Follows m.store (step m) (step' m) := by
  have hended := h _ m m (Pairing.scheme.refl _) hm.like_self
  have hagree : ∀ {p m₁ m₁'}, (Pairing.self m.store).Le p →
      Machine.Like Pairing.scheme p [] m₁ m₁' →
      m₁.current = m.current ∨ m₁'.current = m.current → Machine.Agrees m.store p m₁ m₁' := by
    intro p m₁ m₁' hp h₁ hcurrent
    -- the frame they were started in has no partner but itself
    have hstart : p false m.current m.current := hp _ _ _ ⟨rfl, rfl, hm.current⟩
    obtain ⟨-, hfirst, hsecond⟩ := h₁.store.frames.unique hstart h₁.marked hcurrent
    exact h₁.agrees (hsecond.trans hfirst.symm) hp
  unfold final at hback
  generalize step m = result at hended hback ⊢
  generalize step' m = result' at hended hback ⊢
  cases hended with
  | ok hw ha h₁ =>
    subst ha
    exact .ok (hagree hw h₁ hback)
  | error hw he h₁ =>
    cases he with
    | @failed e e' hfault =>
      obtain ⟨token, failure⟩ := e
      obtain ⟨token', failure'⟩ := e'
      obtain ⟨rfl, rfl⟩ : token' = token ∧ failure' = failure := hfault
      exact .failed (hagree hw h₁ hback)
    | outOfFuel => exact .outOfFuel
  | quit he =>
    obtain ⟨-, rfl⟩ := he
    exact .outOfFuel

end Agrees

/-! ### The statement and the loop -/

/-- **What counted loops mean.** Wherever the parser has accepted a counted loop, and from every
sound machine, the statement ends as the loop does and the loop as the statement does: they come to
the same completion or fail at the same token for the same reason, with the same input read and
output written, and in machines that agree on all variables, arrays, instances, functions and
classes. And all machines are sound that a session may be in, at every moment of a run. -/
theorem countedLoop_means {tokens : List Token} {firstId : Nat} {program : List Stmt}
    (hparsed : (Parser.parseProgram tokens firstId).tree? = some program) {s : Stmt}
    (hs : s ∈ program) {Γ : List Around} {start : Option Stmt} {test step : Option Expr}
    {body : Stmt} (hinside : (Node.stmt s).Inside Γ (.stmt (.countedLoop start test step body))) :
    (∀ m : Machine, m.Sound → ∀ n n',
      (n ≤ n' → Follows m.store (exec n (.countedLoop start test step body) m)
        (countedLoop n' start test step body m)) ∧
      (n + 8 ≤ n' → Follows m.store (countedLoop n start test step body m)
        (exec n' (.countedLoop start test step body) m))) ∧
    ∀ host session, Session.Reachable host session → session.machine.Sound ∧
      ∀ depths host fuel program M,
        Reached fuel program { session.machine with depths, host } M → M.machine.Sound := by
  have hbody : body.BindsNothing :=
    bindsNothing_of_countedLoop ((orderly_of_parsed hparsed s hs).inside hinside)
  refine ⟨fun m hm n n' => ?_, fun host session hsession => ?_⟩
  · have hback : ∀ k, (final (exec k (.countedLoop start test step body)) m).current = m.current :=
      fun k => kept_current.run ⟨k, .exec _, m⟩
    exact ⟨fun hle => follows_of_steps hm (steps_exec_countedLoop hbody start test step hle)
        (.inl (hback n)),
      fun hle => follows_of_steps hm (steps_countedLoop hbody start test step hle)
        (.inr (hback n'))⟩
  · have hsound := hsession.sound
    refine ⟨hsound, fun depths host fuel program M hM => ?_⟩
    have hready : Machine.Sound { session.machine with depths, host } :=
      ⟨hsound.store, hsound.current⟩
    exact (hready.run fuel program).2 M hM

/-- The tokens of `repita (var x = verdadeiro; x; x = falso) { { continue; } }`. -/
def flagTokens : List Token :=
  [⟨.forKw, "repita", 1⟩, ⟨.leftParen, "(", 1⟩, ⟨.varKw, "var", 1⟩, ⟨.identifier, "x", 1⟩,
   ⟨.equal, "=", 1⟩, ⟨.trueKw, "verdadeiro", 1⟩, ⟨.semicolon, ";", 1⟩, ⟨.identifier, "x", 1⟩,
   ⟨.semicolon, ";", 1⟩, ⟨.identifier, "x", 1⟩, ⟨.equal, "=", 1⟩, ⟨.falseKw, "falso", 1⟩,
   ⟨.rightParen, ")", 1⟩, ⟨.leftBrace, "\x7b", 1⟩, ⟨.leftBrace, "\x7b", 1⟩,
   ⟨.continueKw, "continue", 1⟩, ⟨.semicolon, ";", 1⟩, ⟨.rightBrace, "\x7d", 1⟩,
   ⟨.rightBrace, "\x7d", 1⟩, ⟨.endOfInput, "", 1⟩]

def flagStart : Stmt := .var ⟨.identifier, "x", 1⟩ (some (.literal (.boolean true)))

def flagTest : Expr := .var 0 ⟨.identifier, "x", 1⟩

def flagStep : Expr := .assign 1 ⟨.identifier, "x", 1⟩ (.literal (.boolean false))

def flagBody : Stmt := .block [.block [.nextIteration ⟨.continueKw, "continue", 1⟩]]

def flagLoop : Stmt := .countedLoop (some flagStart) (some flagTest) (some flagStep) flagBody

/-- The machine in which the names are resolved. -/
def flagMachine : Machine :=
  { Machine.initial (.withInput []) with depths := (Scope.resolve [flagLoop] ∅).depths }

/-- The loop ends, since the step is evaluated behind the `continue`. -/
theorem flagLoop_means :
    (∃ m, exec 20 flagLoop flagMachine = .ok .normal m) ∧
    Follows Store.initial (exec 20 flagLoop flagMachine)
      (countedLoop 20 (some flagStart) (some flagTest) (some flagStep) flagBody flagMachine) := by
  have hparsed : (Parser.parseProgram flagTokens 0).tree? = some [flagLoop] := by rfl
  have hsound : flagMachine.Sound := ⟨.initial, Store.Sound.initial.globals⟩
  have hmeans := countedLoop_means hparsed List.mem_cons_self (Node.Inside.refl (.stmt flagLoop))
  exact ⟨⟨_, rfl⟩, ((hmeans.1 flagMachine hsound 20 20).1 (Nat.le_refl 20))⟩

end Roteiro
