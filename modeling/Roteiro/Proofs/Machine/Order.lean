import Roteiro.Proofs.Machine.Frames
import Roteiro.Proofs.Machine.Steady

/-!
# The order of a run

The frames of a store are numbered, and their number only grows. That makes it a clock: an
evaluation starts at one number of frames and ends at another, the evaluations that it starts take
place between the two, and of any two of those one has ended before the other starts. So no frame
is opened twice, and a frame stands for one scope as long as it exists.

* `Within.before`: an evaluation ends after those that it starts.
* `Within.apart`: two evaluations inside of the same one do not overlap.
* `Opening.unique_reached`: while a program runs, no frame is opened twice.
-/

namespace Roteiro

open Scope

namespace Machine

/-! ### Time passes -/

/-- The number of frames. -/
def age (m : Machine) : Nat := m.store.frames.size

/-- No action goes back in time. -/
theorem steady_age : Steady fun m m' => m.age ≤ m'.age where
  refl m := Nat.le_refl m.age
  trans h h' := Nat.le_trans h h'
  host m _ := Nat.le_refl m.age
  define m r name v _ := Nat.le_of_eq (m.store.size_define r name v).symm
  putEntry m _ _ _ := Nat.le_refl m.age
  setField m _ _ _ := Nat.le_refl m.age
  addArray m _ := Nat.le_refl m.age
  addInstance m _ := Nat.le_refl m.age
  addFrame m around bindings := (Store.Grows.addFrame m.store around bindings).size
  lambda m _ _ := Nat.le_refl m.age
  function _ _ _ _ := Nat.le_of_eq (Store.size_define _ _ _ _).symm
  classDecl _ _ _ _ _ := Nat.le_of_eq (Store.size_define _ _ _ _).symm
  bound m _ _ method receiver _ _ :=
    (Store.Grows.addFrame m.store method.frame [(selfName, .instanceRef receiver)]).size
  inside m around bindings _ h :=
    Nat.le_trans (Store.Grows.addFrame m.store around bindings).size h
  moved m _ := Nat.le_refl m.age

theorem age_enter (m : Machine) (around : Ref .frames) (bindings : Bindings Value) :
    (m.enter around bindings).age = m.age + 1 :=
  m.store.size_addFrame around bindings

theorem age_boundInitializer (m : Machine) (k : Ref .classes) (initializer : Closure) :
    (m.boundInitializer k initializer).2.age = m.age + 1 :=
  (m.withInstance k).store.size_addFrame initializer.frame _

/-- An evaluation does not end before it starts. -/
theorem age_le_final (n : Nat) (task : Task) (m : Machine) : m.age ≤ (final (task.run n) m).age :=
  steady_age.ran n task m

/-- **An evaluation ends after those that it starts.** -/
theorem Within.before {X M : Moment} (h : Within X M) : X.final.age ≤ M.final.age :=
  steady_age.before h

/-! ### Evaluations inside of the same one -/

/-- An evaluation that gives a result ends where the next one starts. -/
theorem ended {n : Nat} {m m' : Machine} (task : Task) {a : task.Result}
    (h : task.run n m = .ok a m') : Moment.final ⟨n, task, m⟩ = m' ∧ m.age ≤ m'.age := by
  have hfinal : Moment.final ⟨n, task, m⟩ = m' := by simp only [Moment.final, final, h]
  refine ⟨hfinal, ?_⟩
  rw [← hfinal]
  exact age_le_final n task m

theorem eval_ended {n : Nat} {e : Expr} {m m' : Machine} {v : Value} (h : eval n e m = .ok v m') :
    Moment.final ⟨n, .eval e, m⟩ = m' ∧ m.age ≤ m'.age := ended (.eval e) h

theorem evalAll_ended {n : Nat} {es : List Expr} {m m' : Machine} {vs : List Value}
    (h : evalAll n es m = .ok vs m') :
    Moment.final ⟨n, .evalAll es, m⟩ = m' ∧ m.age ≤ m'.age := ended (.evalAll es) h

theorem exec_ended {n : Nat} {s : Stmt} {m m' : Machine} {flow : Flow}
    (h : exec n s m = .ok flow m') :
    Moment.final ⟨n, .exec s, m⟩ = m' ∧ m.age ≤ m'.age := ended (.exec s) h

theorem execAll_ended {n : Nat} {ss : List Stmt} {m m' : Machine} {flow : Flow}
    (h : execAll n ss m = .ok flow m') :
    Moment.final ⟨n, .execAll ss, m⟩ = m' ∧ m.age ≤ m'.age := ended (.execAll ss) h

/-- **Two evaluations inside of the same one do not overlap.** -/
theorem Within.apart {X Y M : Moment} (hX : Within X M) (hY : Within Y M) :
    X = Y ∨ X.final.age ≤ Y.machine.age ∨ Y.final.age ≤ X.machine.age := by
  have hage : ∀ M : Moment, M.machine.age ≤ M.final.age :=
    fun M => age_le_final M.fuel M.task M.machine
  have hcurrent : ∀ (m : Machine) (r : Ref .frames), age { m with current := r } = m.age :=
    fun _ _ => rfl
  -- the results that both of them build on are the same, since evaluations have only one
  cases hX <;> cases hY <;> first
    | exact .inl rfl
    | grind [→ eval_ended, → evalAll_ended, → exec_ended, → execAll_ended, age_enter]

/-! ### The opening of a frame -/

/-- A method that is found becomes a function of its own, in a new frame that holds the receiver. -/
theorem property_method {m : Machine} {r : Ref .instances} {name : Token} {method : Closure}
    (hfield : (m.store.instanceAt r).fields.find? name.lexeme = none)
    (hmethod : (m.store.classInfo (m.store.instanceAt r).classRef).methods.find? name.lexeme =
      some method) :
    property r name m = .ok (.function ⟨m.store.functions.size⟩) { m with
      store := ((m.store.addFrame method.frame [(selfName, .instanceRef r)]).2.addFunction
        { method with frame := ⟨m.store.frames.size⟩ }).2 } := by
  have hproperty : property r name m = (bindMethod method r >>= fun bound => do
      let ref ← allocate fun s => s.addFunction bound
      return .function ref) m := by
    simp only [property, withStore, Bind.bind, EStateM.bind, hfield, hmethod]
  rw [hproperty]
  rfl

/-- A method that is found gets one more frame. -/
theorem age_property {m : Machine} {r : Ref .instances} {name : Token} {method : Closure}
    (hfield : (m.store.instanceAt r).fields.find? name.lexeme = none)
    (hmethod : (m.store.classInfo (m.store.instanceAt r).classRef).methods.find? name.lexeme =
      some method) : (final (property r name) m).age = m.age + 1 := by
  rw [final, property_method hfield hmethod]
  exact m.store.size_addFrame method.frame [(selfName, .instanceRef r)]

/-- A frame is opened between the start of an evaluation and its end, and not during any evaluation
inside of it. -/
structure Opening (M : Moment) (F : Ref .frames) : Prop where
  start : M.machine.age ≤ F.index
  beside : ∀ X, Within X M → F.index < X.machine.age ∨ X.final.age ≤ F.index
  stop : F.index < M.final.age

/-- If the frame is there when an evaluation inside starts, it is there at the end. -/
theorem lt_final_of_within {X M : Moment} {F : Ref .frames} (h : Within X M)
    (hX : F.index < X.machine.age) : F.index < M.final.age := by
  have hrun := age_le_final X.fuel X.task X.machine
  have hend := h.before
  exact Nat.lt_of_lt_of_le hX (Nat.le_trans hrun hend)

/-- A frame that an evaluation opens first of all, before any evaluation inside of it. -/
theorem Opening.first {X M : Moment} (hX : Within X M)
    (h : ∀ Y, Within Y M → M.machine.age < Y.machine.age) : Opening M ⟨M.machine.age⟩ where
  start := Nat.le_refl _
  beside Y hY := .inl (h Y hY)
  stop := lt_final_of_within hX (h X hX)

theorem Receives.opening {M : Moment} {F : Ref .frames} {r : Ref .instances} {c : Closure}
    (h : Receives M F r c) : Opening M F := by
  cases h with
  | @property n m object name r m₁ method hobject hfield hmethod =>
    obtain ⟨hended, hage⟩ := eval_ended hobject
    refine ⟨hage, fun X hX => ?_, ?_⟩
    · cases hX
      exact .inr (Nat.le_of_eq (congrArg age hended))
    · have hfinal : Moment.final ⟨n + 1, .eval (.get object name), m⟩ =
          final (Machine.property r name) m₁ := by
        change final (eval (n + 1) (.get object name)) m = _
        unfold eval
        rw [final_bind_of_ok hobject]
      rw [hfinal, age_property hfield hmethod]
      exact Nat.lt_succ_self _
  | @construction n m k paren vs initializer hmethod harity =>
    refine .first (.callInitializer hmethod harity) fun X hX => ?_
    cases hX with
    | callInitializer =>
      rw [age_boundInitializer]
      exact Nat.lt_succ_self _

theorem Opens.opening {M : Moment} {F : Ref .frames} {S : Site} (h : Opens M F S) : Opening M F := by
  cases h with
  | receiver h => exact h.opening
  | @block n m body =>
    refine .first .block fun X hX => ?_
    cases hX
    rw [age_enter]
    exact Nat.lt_succ_self _
  | @call n m c paren vs =>
    refine .first .body fun X hX => ?_
    cases hX
    rw [age_enter]
    exact Nat.lt_succ_self _
  | @step n m test body s v m₁ m₂ htest hv hbody =>
    obtain ⟨htestEnd, htestAge⟩ := eval_ended htest
    obtain ⟨hbodyEnd, hbodyAge⟩ := exec_ended hbody
    have hentered : m₂.age < (m₂.enter m₂.current []).age := by
      rw [age_enter]
      exact Nat.lt_succ_self _
    refine ⟨Nat.le_trans htestAge hbodyAge, fun X hX => ?_,
      lt_final_of_within (.loopStep htest hv hbody) hentered⟩
    cases hX with
    | loopTest =>
      refine .inr ?_
      rw [htestEnd]
      exact hbodyAge
    | loopBody htest' =>
      cases htest.symm.trans htest'
      exact .inr (Nat.le_of_eq (congrArg age hbodyEnd))
    | loopAgain htest' _ hbody' =>
      cases htest.symm.trans htest'
      cases hbody.symm.trans hbody'
    | loopStep htest' _ hbody' =>
      cases htest.symm.trans htest'
      cases hbody.symm.trans hbody'
      exact .inl hentered
    | loopStepped htest' _ hbody' hstep =>
      cases htest.symm.trans htest'
      cases hbody.symm.trans hbody'
      exact .inl (Nat.lt_of_lt_of_le hentered (execAll_ended hstep).2)

/-- An evaluation looks up at most one method. -/
theorem Receives.unique {M : Moment} {F F' : Ref .frames} {r r' : Ref .instances} {c c' : Closure}
    (h : Receives M F r c) (h' : Receives M F' r' c') : r = r' ∧ c = c' := by
  cases h with
  | property hobject _ hmethod =>
    cases h' with
    | property hobject' _ hmethod' =>
      cases hobject.symm.trans hobject'
      exact ⟨rfl, Option.some.inj (hmethod.symm.trans hmethod')⟩
  | construction hmethod =>
    cases h' with
    | construction hmethod' => exact ⟨rfl, Option.some.inj (hmethod.symm.trans hmethod')⟩

/-- An evaluation opens a frame for at most one scope. -/
theorem Opens.site_unique {M : Moment} {F F' : Ref .frames} {S S' : Site} (h : Opens M F S)
    (h' : Opens M F' S') : S = S' := by
  cases h with
  | block =>
    cases h' with
    | block => rfl
    | receiver hr => cases hr
  | call =>
    cases h' with
    | call => rfl
    | receiver hr => cases hr
  | receiver hr =>
    cases h' with
    | receiver hr' => rw [(hr.unique hr').2]
    | block | call | step => cases hr
  | step =>
    cases h' with
    | step => rfl
    | receiver hr => cases hr

/-! ### No frame is opened twice -/

/-- What takes place during an evaluation is the evaluation, or takes place during one that it
starts. -/
theorem During.head {X M : Moment} (h : During X M) :
    X = M ∨ ∃ X', Within X' M ∧ During X X' := by
  induction h with
  | refl => exact .inl rfl
  | step hwithin hduring ih =>
    rcases ih with rfl | ⟨X', hX', hin⟩
    · exact .inr ⟨_, hwithin, .refl _⟩
    · exact .inr ⟨X', hX', .step hwithin hin⟩

theorem During.age {X M : Moment} (h : During X M) :
    M.machine.age ≤ X.machine.age ∧ X.final.age ≤ M.final.age :=
  steady_age.during h

variable {X Y M : Moment} {F : Ref .frames}

/-- The frames that are opened during an evaluation are those of its time. -/
theorem Opening.time (h : Opening X F) (hX : During X M) :
    M.machine.age ≤ F.index ∧ F.index < M.final.age :=
  ⟨Nat.le_trans hX.age.1 h.start, Nat.lt_of_lt_of_le h.stop hX.age.2⟩

/-- What an evaluation opens itself is not opened during those that it starts. -/
theorem Opening.not_within (h : Opening M F) (hY : Opening Y F) {X : Moment} (hX : Within X M)
    (hduring : During Y X) : False := by
  obtain ⟨hstart, hstop⟩ := hY.time hduring
  rcases h.beside X hX with hlt | hle
  · exact Nat.lt_irrefl _ (Nat.lt_of_lt_of_le hlt hstart)
  · exact Nat.lt_irrefl _ (Nat.lt_of_lt_of_le hstop hle)

/-- The induction is on the fuel: two evaluations that open the same frame are the same, or both
take place during the same one that the evaluation around them starts. -/
theorem Opening.unique_during (hX : During X M) (hY : During Y M) (h : Opening X F)
    (h' : Opening Y F) : X = Y := by
  obtain ⟨n, task, m⟩ := M
  induction n generalizing task m with
  | zero =>
    have hlast : ∀ {X : Moment}, During X ⟨0, task, m⟩ → X = ⟨0, task, m⟩ := by
      intro X hX
      rcases hX.head with rfl | ⟨X', hwithin, -⟩
      · rfl
      · cases hwithin.fuel
    rw [hlast hX, hlast hY]
  | succ n ih =>
    rcases hX.head with rfl | ⟨X', hX', hin⟩
    · rcases hY.head with rfl | ⟨Y', hY', hin'⟩
      · rfl
      · exact (h.not_within h' hY' hin').elim
    · rcases hY.head with rfl | ⟨Y', hY', hin'⟩
      · exact (h'.not_within h hX' hin).elim
      · obtain ⟨hstart, hstop⟩ := h.time hin
        obtain ⟨hstart', hstop'⟩ := h'.time hin'
        rcases hX'.apart hY' with rfl | hle | hle
        · obtain ⟨k, task', m'⟩ := X'
          cases hX'.fuel
          exact ih task' m' hin hin'
        · exact absurd (Nat.lt_of_lt_of_le hstop (Nat.le_trans hle hstart')) (Nat.lt_irrefl _)
        · exact absurd (Nat.lt_of_lt_of_le hstop' (Nat.le_trans hle hstart)) (Nat.lt_irrefl _)

/-- The time that a program takes. -/
theorem age_le_execProgram (fuel : Nat) (program : List Stmt) (m : Machine) :
    m.age ≤ (final (execProgram fuel program) m).age :=
  steady_age.program fuel program m

/-- What takes place while a program runs takes place between its start and its end. -/
theorem Reached.age {fuel : Nat} {program : List Stmt} {m : Machine} (h : Reached fuel program m X) :
    m.age ≤ X.machine.age ∧ X.final.age ≤ (final (execProgram fuel program) m).age :=
  steady_age.reached h

theorem Opening.reached {fuel : Nat} {program : List Stmt} {m : Machine} (h : Opening X F)
    (hX : Reached fuel program m X) :
    m.age ≤ F.index ∧ F.index < (final (execProgram fuel program) m).age :=
  ⟨Nat.le_trans hX.age.1 h.start, Nat.lt_of_lt_of_le h.stop hX.age.2⟩

/-- **While a program runs, no frame is opened twice.** -/
theorem Opening.unique_reached {fuel : Nat} {program : List Stmt} {m : Machine}
    (hX : Reached fuel program m X) (hY : Reached fuel program m Y) (h : Opening X F)
    (h' : Opening Y F) : X = Y := by
  -- what is opened by the first statement is there before the others start
  have hfirst : ∀ {s : Stmt} {ss : List Stmt} {m m₁ : Machine} {flow : Flow} {X Y : Moment},
      During X ⟨fuel, .exec s, m⟩ → exec fuel s m = .ok flow m₁ → Reached fuel ss m₁ Y →
      Opening X F → Opening Y F → False := by
    intro s ss m m₁ flow X Y hduring hrun hreached hX hY
    have hstop := (hX.time hduring).2
    rw [(exec_ended hrun).1] at hstop
    exact Nat.lt_irrefl _ (Nat.lt_of_lt_of_le hstop (hY.reached hreached).1)
  induction hX with
  | here hduring =>
    cases hY with
    | here hduring' => exact h.unique_during hduring hduring' h'
    | later hrun hreached => exact (hfirst hduring hrun hreached h h').elim
  | later hrun hreached ih =>
    cases hY with
    | here hduring => exact (hfirst hduring hrun hreached h' h).elim
    | later hrun' hreached' =>
      cases hrun.symm.trans hrun'
      exact ih hreached' h

end Machine

end Roteiro
