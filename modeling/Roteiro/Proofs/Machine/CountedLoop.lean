import Roteiro.Proofs.Machine.Pairing
import Roteiro.Proofs.Machine.Sound

/-!
# Counted loops

A counted loop has no node of its own: it is run as a block around a loop whose body is a block, and
the step is there twice. What it means is `countedLoop`: the start runs once in a frame of the loop,
the test is evaluated in that frame, and each iteration runs the body and evaluates the step, each
in a frame of its own inside the frame of the loop.

The two do the same, but not in the same frames. At the end of the block, the step is evaluated in
the frame that the body was run in; behind a `continue`, and in `countedLoop` always, a new frame is
opened for it. The body binds nothing, so the frame of the block is bare, and any bare frame inside
the frame of the loop does as well. Each way round, the second run may need more fuel.

* `countedLoop`: what a counted loop does.
* `steps_exec_countedLoop`, `steps_countedLoop`: the statement does what the loop does, and the loop
  what the statement does.
-/

namespace Roteiro

namespace Machine

/-! ### The loop -/

/-- The value of the test. A missing test holds. -/
def loopTest (fuel : Nat) : Option Expr → Run Value
  | none => return .boolean true
  | some e => eval fuel e

/-- Evaluates an expression and forgets its value. -/
def discard (fuel : Nat) (e : Expr) : Run Flow := do
  let _ ← eval fuel e
  return .normal

/-- One iteration of a counted loop. If the body ends normally or with `continue`, the step is
evaluated once, in a frame of its own; otherwise it is not evaluated. -/
def iteration (fuel : Nat) (step : Option Expr) (body : Stmt) : Run Flow :=
  match step with
  | none => exec fuel body
  | some e => do
    match ← inNewFrame (exec fuel body) with
    | .normal | .nextIteration => inNewFrame (discard fuel e)
    | flow => return flow

/-- The iterations of a counted loop, as long as the test holds. -/
def iterations : Nat → Option Expr → Option Expr → Stmt → Run Flow
  | 0, _, _, _ => throw .outOfFuel
  | fuel + 1, test, step, body => do
    let v ← loopTest fuel test
    if v.truthy then
      match ← iteration fuel step body with
      | .exitLoop => return .normal
      | .result v => return .result v
      | _ => iterations fuel test step body
    else return .normal

/-- **What a counted loop does.** The start runs once, in a frame of the loop; without a start the
loop has no frame of its own. -/
def countedLoop (fuel : Nat) (start : Option Stmt) (test step : Option Expr) (body : Stmt) :
    Run Flow :=
  match start with
  | none => iterations fuel test step body
  | some s => inNewFrame do
    match ← exec fuel s with
    | .normal => iterations fuel test step body
    | flow => return flow

/-! ### Both in pieces -/

/-- What comes behind something that may have ended normally. -/
def ifNormal (next : Run Flow) : Flow → Run Flow
  | .normal => next
  | flow => return flow

/-- What comes behind something that may have ended with `continue`. -/
def ifCutShort (next : Run Flow) : Flow → Run Flow
  | .nextIteration => next
  | flow => return flow

theorem execAll_single (n : Nat) (s : Stmt) : execAll (n + 2) [s] = exec (n + 1) s := by
  funext m
  simp only [execAll, bind, EStateM.bind]
  generalize exec (n + 1) s m = result
  cases result with
  | error e m' => rfl
  | ok flow m' => cases flow <;> rfl

theorem execAll_expression (n : Nat) (e : Expr) :
    execAll (n + 2) [.expression e] = discard n e := by
  rw [execAll_single]
  unfold exec
  rfl

theorem exec_pair (n : Nat) (s t : Stmt) :
    exec (n + 2) (.block [s, t]) = inNewFrame (exec n s >>= ifNormal (execAll n [t])) := by
  simp only [exec, execAll]
  rfl

/-- What is evaluated for its effects ends normally. -/
theorem inNewFrame_discard (n : Nat) (e : Expr) :
    (inNewFrame (discard n e) >>= fun _ => pure .normal) = inNewFrame (discard n e) := by
  funext m
  simp only [discard, bind, EStateM.bind, inNewFrame_eq]
  generalize eval n e (m.enter m.current []) = result
  cases result <;> rfl

theorem iteration_eq (n : Nat) (e : Expr) (body : Stmt) :
    iteration n (some e) body =
      (inNewFrame (exec n body) >>= ifNormal (inNewFrame (discard n e))) >>=
        ifCutShort (inNewFrame (discard n e)) := by
  funext m
  simp only [iteration, bind, EStateM.bind]
  generalize inNewFrame (exec n body) m = ended
  cases ended with
  | error e m' => rfl
  | ok flow m' =>
    cases flow with
    | normal =>
      simp only [ifNormal, discard, bind, EStateM.bind, inNewFrame_eq]
      generalize eval n e (m'.enter m'.current []) = result
      cases result <;> rfl
    | _ => rfl

/-- One iteration of a loop: the body, and the step behind a `continue`. -/
def stepped (n : Nat) (body : Stmt) : Option Stmt → Run Flow
  | none => exec n body
  | some s => exec n body >>= ifCutShort do
    let _ ← inNewFrame (execAll n [s])
    return .normal

theorem execLoop_eq (n : Nat) (test : Expr) (body : Stmt) (step : Option Stmt) :
    execLoop (n + 1) test body step = do
      let v ← eval n test
      if v.truthy then
        match ← stepped n body step with
        | .exitLoop => return .normal
        | .result v => return .result v
        | _ => execLoop n test body step
      else return .normal := by
  funext m
  simp only [execLoop, bind, EStateM.bind]
  generalize eval n test m = tested
  cases tested with
  | error e m' => rfl
  | ok v m' =>
    dsimp only
    split
    · cases step with
      | none =>
        simp only [stepped, EStateM.bind]
        generalize exec n body m' = ended
        cases ended with
        | error e m₁ => rfl
        | ok flow m₁ => cases flow <;> rfl
      | some s =>
        simp only [stepped, bind, EStateM.bind]
        generalize exec n body m' = ended
        cases ended with
        | error e m₁ => rfl
        | ok flow m₁ =>
          cases flow with
          | nextIteration =>
            simp only [ifCutShort, EStateM.bind]
            generalize inNewFrame (execAll n [s]) m₁ = result
            cases result <;> rfl
          | _ => rfl
    · rfl

/-! ### Frames that are left -/

/-- A new frame is opened in both machines, for a scope with the mark `b`. -/
theorem Like.enter {L : Likeness} {S : Scheme L} {w : S.World} {bs : List Bool} {m m' : Machine}
    (h : m.Like S w bs m') (b : Bool) :
    ∃ w', S.le w w' ∧
      (m.enter m.current []).Like S w' (b :: bs) (m'.enter m'.current []) := by
  obtain ⟨w', hw, hframes, hmarked⟩ := S.enter h.store.frames h.marked (S.bound_nil b)
  exact ⟨w', hw, h.store.withFrames hw hframes, hmarked, h.depths, h.host⟩

/-- What is run in a new frame is in that frame at its end, and the frames around it are those
around where it was opened. -/
theorem outer_of_exec {n : Nat} {s : Stmt} {flow : Flow} {m m' : Machine}
    (h : exec n s (m.enter m.current []) = .ok flow m')
    (hcurrent : m.current.index < m.store.frames.size) :
    (m'.store.frame m'.current).outer = m'.store.path m.current := by
  let M := m.enter m.current []
  have hkept : m'.current = M.current ∧ M.store.Extends m'.store := by
    have hframe := kept_current.run ⟨n, .exec s, M⟩
    have houter := kept_extends.run ⟨n, .exec s, M⟩
    simp only [Moment.final, final, Task.run, M, h] at hframe houter
    exact ⟨hframe, houter⟩
  obtain ⟨hframe, hstore⟩ := hkept
  have hlt : m.current.index < M.store.frames.size := by
    simpa [M, enter, Store.addFrame] using Nat.lt_succ_of_lt hcurrent
  have hnew : M.current.index < M.store.frames.size := by simp [M, enter, Store.addFrame]
  calc (m'.store.frame m'.current).outer
      _ = (M.store.frame M.current).outer := by rw [hframe, hstore.outer _ hnew]
      _ = m.store.path m.current := by simp only [M, enter, Store.frame_addFrame_self]
      _ = M.store.path m.current := by
        rw [Store.path, Store.path]
        simp only [M, enter, Store.frame_addFrame hcurrent]
      _ = m'.store.path m.current := by rw [Store.path, Store.path, hstore.outer _ hlt]

section Bare

variable {w : Pairing} {bs : List Bool} {n n' : Nat} {b : Stmt}

/-- Behind a body, a new frame is opened in the machine that the body has left. -/
theorem inNewFrame_ifNormal (n : Nat) (b : Stmt) (next : Run Flow) (m : Machine) :
    (inNewFrame (exec n b) >>= ifNormal (inNewFrame next)) m =
      backIn m.current ((exec n b >>= ifNormal fun m₁ => next (m₁.enter m.current []))
        (m.enter m.current [])) := by
  simp only [bind, EStateM.bind, inNewFrame_backIn]
  generalize exec n b (m.enter m.current []) = result
  cases result with
  | error e m₁ => rfl
  | ok flow m₁ =>
    cases flow with
    | normal => exact inNewFrame_backIn next { m₁ with current := m.current }
    | _ => rfl

/-- The body is run in a new frame in both machines. What is run behind it may rely on the frames
around the ones that the body was run in. -/
theorem ended_behindBody {next next' : Run Flow} {m m' : Machine}
    (hm : m.Like Pairing.scheme w bs m')
    (hb : ∀ w, Steps Pairing.scheme w (true :: bs) Same (exec n b) (exec n' b))
    (hnext : ∀ w m₁ m₁', Machine.Like Pairing.scheme w (true :: bs) m₁ m₁' →
      (m₁.store.frame m₁.current).outer = m₁.store.path m.current →
      (m₁'.store.frame m₁'.current).outer = m₁'.store.path m'.current →
      Ended Pairing.scheme w (true :: bs) Pairing.scheme.Quits (Halt.Like Pairing.scheme) Same
        (next m₁) (next' m₁')) :
    Ended Pairing.scheme w bs Pairing.scheme.Quits (Halt.Like Pairing.scheme) Same
      (backIn m.current ((exec n b >>= ifNormal next) (m.enter m.current [])))
      (backIn m'.current ((exec n' b >>= ifNormal next') (m'.enter m'.current []))) := by
  obtain ⟨w₁, hw₁, henter⟩ := hm.enter true
  -- both come back to where they were, so the results are compared before that
  suffices hbody : Ended Pairing.scheme w₁ (true :: bs) Pairing.scheme.Quits
      (Halt.Like Pairing.scheme) Same ((exec n b >>= ifNormal next) (m.enter m.current []))
      ((exec n' b >>= ifNormal next') (m'.enter m'.current [])) from hbody.back hm hw₁
  have hended := hb w₁ w₁ _ _ (Pairing.scheme.refl w₁) henter
  have houter : ∀ {flow m₁}, exec n b (m.enter m.current []) = .ok flow m₁ →
      (m₁.store.frame m₁.current).outer = m₁.store.path m.current :=
    fun hrun => outer_of_exec hrun (hm.store.frames.lt hm.marked).1
  have houter' : ∀ {flow m₁}, exec n' b (m'.enter m'.current []) = .ok flow m₁ →
      (m₁.store.frame m₁.current).outer = m₁.store.path m'.current :=
    fun hrun => outer_of_exec hrun (hm.store.frames.lt hm.marked).2
  simp only [bind, EStateM.bind]
  generalize exec n b (m.enter m.current []) = result at hended houter ⊢
  generalize exec n' b (m'.enter m'.current []) = result' at hended houter' ⊢
  cases hended with
  | quit he => exact .quit he
  | error hw₂ he h₁ => exact .error hw₂ he h₁
  | @ok w₂ flow _ m₁ m₁' hw₂ ha h₁ =>
    subst ha
    cases flow with
    | normal => exact (hnext w₂ m₁ m₁' h₁ (houter rfl) (houter' rfl)).weaken hw₂
    | _ => exact .ok hw₂ rfl h₁

variable {step step' : Run Flow}

/-- The first machine goes on in the frame of the body, the second one opens a new frame. -/
theorem steps_inBody (hb : ∀ w, Steps Pairing.scheme w (true :: bs) Same (exec n b) (exec n' b))
    (hstep : ∀ w, Steps Pairing.scheme w (true :: bs) Same step step') :
    Steps Pairing.scheme w bs Same (inNewFrame (exec n b >>= ifNormal step))
      (inNewFrame (exec n' b) >>= ifNormal (inNewFrame step')) := by
  intro w₁ m m' _ hm
  rw [inNewFrame_backIn, inNewFrame_ifNormal]
  refine ended_behindBody hm hb fun w₂ m₁ m₁' h₁ _ houter' => ?_
  -- the new frame is a second partner for the frame of the first body
  obtain ⟨w₃, hw₃, hpair, hframes⟩ := h₁.store.frames.beside' h₁.marked houter'
  have hopen : m₁.Like Pairing.scheme w₃ (true :: bs) (m₁'.enter m'.current []) :=
    ⟨h₁.store.withFrames hw₃ hframes, hpair, h₁.depths, h₁.host⟩
  exact (hstep w₃ w₃ _ _ (Pairing.scheme.refl w₃) hopen).weaken hw₃

/-- The other way round. -/
theorem steps_besideBody
    (hb : ∀ w, Steps Pairing.scheme w (true :: bs) Same (exec n b) (exec n' b))
    (hstep : ∀ w, Steps Pairing.scheme w (true :: bs) Same step step') :
    Steps Pairing.scheme w bs Same (inNewFrame (exec n b) >>= ifNormal (inNewFrame step))
      (inNewFrame (exec n' b >>= ifNormal step')) := by
  intro w₁ m m' _ hm
  rw [inNewFrame_ifNormal, inNewFrame_backIn]
  refine ended_behindBody hm hb fun w₂ m₁ m₁' h₁ houter _ => ?_
  -- the new frame is a second partner for the frame of the second body
  obtain ⟨w₃, hw₃, hpair, hframes⟩ := h₁.store.frames.beside h₁.marked houter
  have hopen : Machine.Like Pairing.scheme w₃ (true :: bs) (m₁.enter m.current []) m₁' :=
    ⟨h₁.store.withFrames hw₃ hframes, hpair, h₁.depths, h₁.host⟩
  exact (hstep w₃ w₃ _ _ (Pairing.scheme.refl w₃) hopen).weaken hw₃

end Bare

/-! ### Side by side -/

section Steps

variable {w : Pairing} {bs : List Bool} {n n' : Nat}

theorem fuel_of_le (h : n ≤ n') : Pairing.scheme.Fuel n n' := .inr ⟨trivial, h⟩

theorem steps_eval (e : Expr) (h : n ≤ n') :
    Steps Pairing.scheme w bs Same (eval n e) (eval n' e) :=
  (stepsParallel (fuel_of_le h)).eval (e.like_self bs)

theorem steps_exec {s : Stmt} (hs : innermost bs = false ∨ s.BindsNothing) (h : n ≤ n') :
    Steps Pairing.scheme w bs Same (exec n s) (exec n' s) :=
  (stepsParallel (fuel_of_le h)).exec (s.like_self hs)

theorem steps_discard (e : Expr) (h : n ≤ n') :
    Steps Pairing.scheme w bs Same (discard n e) (discard n' e) :=
  (steps_eval e h).andThen fun _ _ => .pure fun _ => rfl

/-- A list of one statement needs a little more fuel than the statement. -/
theorem steps_execAll_expression (e : Expr) (h : n ≤ n') :
    Steps Pairing.scheme w bs Same (execAll n [.expression e]) (discard n' e) := by
  rcases n with _ | _ | k
  · exact steps_quit trivial
  · exact fun _ _ _ _ _ => .quit ⟨trivial, rfl⟩
  · rw [execAll_expression]
    exact steps_discard e (by omega)

theorem steps_discard_execAll (e : Expr) (h : n + 2 ≤ n') :
    Steps Pairing.scheme w bs Same (discard n e) (execAll n' [.expression e]) := by
  obtain ⟨k, rfl⟩ := Nat.exists_eq_add_of_le' (Nat.le_of_add_left_le h)
  rw [execAll_expression]
  exact steps_discard e (by omega)

/-- What the loop that a counted loop is run as repeats. -/
def repeated (step : Option Expr) (body : Stmt) : Stmt :=
  match step with
  | some e => .block [body, .expression e]
  | none => body

/-- **One iteration of the loop is one of the counted loop.** -/
theorem steps_stepped {body : Stmt} (hbody : body.BindsNothing) (step : Option Expr) (h : n ≤ n') :
    Steps Pairing.scheme w bs Same (stepped n (repeated step body) (step.map .expression))
      (iteration n' step body) := by
  cases step with
  | none => exact steps_exec (.inr hbody) h
  | some e =>
    rw [iteration_eq]
    have hblock : Steps Pairing.scheme w bs Same (exec n (repeated (some e) body))
        (inNewFrame (exec n' body) >>= ifNormal (inNewFrame (discard n' e))) := by
      -- with less fuel, the block does not come to the body
      rcases n with _ | _ | k
      · exact steps_quit trivial
      · exact fun _ _ _ _ _ => .quit ⟨trivial, rfl⟩
      · rw [repeated, exec_pair]
        exact steps_inBody (fun _ => steps_exec (.inr hbody) (by omega))
          fun _ => steps_execAll_expression e (by omega)
    refine hblock.andThen fun flow _ => ?_
    cases flow with
    | nextIteration =>
      rw [ifCutShort, ifCutShort, ← inNewFrame_discard]
      exact (steps_inNewFrame true fun _ => steps_execAll_expression e h).andThen
        fun _ _ => .pure fun _ => rfl
    | _ => exact .pure fun _ => rfl

theorem steps_iteration {body : Stmt} (hbody : body.BindsNothing) (step : Option Expr)
    (h : n + 4 ≤ n') :
    Steps Pairing.scheme w bs Same (iteration n step body)
      (stepped n' (repeated step body) (step.map .expression)) := by
  cases step with
  | none => exact steps_exec (.inr hbody) (by omega)
  | some e =>
    rw [iteration_eq]
    have hblock : Steps Pairing.scheme w bs Same
        (inNewFrame (exec n body) >>= ifNormal (inNewFrame (discard n e)))
        (exec n' (repeated (some e) body)) := by
      obtain ⟨k, rfl⟩ := Nat.exists_eq_add_of_le' (show 2 ≤ n' by omega)
      rw [repeated, exec_pair]
      exact steps_besideBody (fun _ => steps_exec (.inr hbody) (by omega))
        fun _ => steps_discard_execAll e (by omega)
    refine hblock.andThen fun flow _ => ?_
    cases flow with
    | nextIteration =>
      rw [ifCutShort, ifCutShort, ← inNewFrame_discard]
      exact (steps_inNewFrame true fun _ => steps_discard_execAll e (by omega)).andThen
        fun _ _ => .pure fun _ => rfl
    | _ => exact .pure fun _ => rfl

theorem steps_eval_loopTest (test : Option Expr) (h : n ≤ n') :
    Steps Pairing.scheme w bs Same (eval n (test.getD (.literal (.boolean true))))
      (loopTest n' test) := by
  cases test with
  | some e => exact steps_eval e h
  | none =>
    cases n with
    | zero => exact steps_quit trivial
    | succ n =>
      unfold eval
      exact .pure fun _ => rfl

theorem steps_loopTest (test : Option Expr) (h : n + 1 ≤ n') :
    Steps Pairing.scheme w bs Same (loopTest n test)
      (eval n' (test.getD (.literal (.boolean true)))) := by
  cases test with
  | some e => exact steps_eval e (by omega)
  | none =>
    obtain ⟨k, rfl⟩ := Nat.exists_eq_add_of_le' (Nat.le_of_add_left_le h)
    unfold eval
    exact .pure fun _ => rfl

/-- **The loop goes through the iterations of the counted loop.** -/
theorem steps_execLoop {body : Stmt} (hbody : body.BindsNothing) (test step : Option Expr)
    (h : n ≤ n') :
    Steps Pairing.scheme w bs Same
      (execLoop n (test.getD (.literal (.boolean true))) (repeated step body)
        (step.map .expression))
      (iterations n' test step body) := by
  induction n generalizing n' w with
  | zero => exact steps_quit trivial
  | succ n ih =>
    obtain ⟨k, rfl⟩ := Nat.exists_eq_add_of_le' (Nat.le_of_add_left_le h)
    rw [execLoop_eq]
    unfold iterations
    refine (steps_eval_loopTest test (by omega)).andThen fun v _ => .ite ?_ (.pure fun _ => rfl)
    refine (steps_stepped hbody step (by omega)).andThen fun flow _ => ?_
    cases flow with
    | normal => exact ih (by omega)
    | nextIteration => exact ih (by omega)
    | exitLoop => exact .pure fun _ => rfl
    | result v => exact .pure fun _ => rfl

theorem steps_iterations {body : Stmt} (hbody : body.BindsNothing) (test step : Option Expr)
    (h : n + 4 ≤ n') :
    Steps Pairing.scheme w bs Same (iterations n test step body)
      (execLoop n' (test.getD (.literal (.boolean true))) (repeated step body)
        (step.map .expression)) := by
  induction n generalizing n' w with
  | zero => exact steps_quit trivial
  | succ n ih =>
    obtain ⟨k, rfl⟩ := Nat.exists_eq_add_of_le' (show 1 ≤ n' by omega)
    rw [execLoop_eq]
    unfold iterations
    refine (steps_loopTest test (by omega)).andThen fun v _ => .ite ?_ (.pure fun _ => rfl)
    refine (steps_iteration hbody step (by omega)).andThen fun flow _ => ?_
    cases flow with
    | normal => exact ih (by omega)
    | nextIteration => exact ih (by omega)
    | exitLoop => exact .pure fun _ => rfl
    | result v => exact .pure fun _ => rfl

theorem countedLoop_none (test step : Option Expr) (body : Stmt) :
    Stmt.countedLoop none test step body =
      .loop (test.getD (.literal (.boolean true))) (repeated step body)
        (step.map .expression) := by
  cases step <;> rfl

theorem countedLoop_some (s : Stmt) (test step : Option Expr) (body : Stmt) :
    Stmt.countedLoop (some s) test step body =
      .block [s, .countedLoop none test step body] := rfl

/-- **The statement does what the counted loop does.** -/
theorem steps_exec_countedLoop {body : Stmt} (hbody : body.BindsNothing) (start : Option Stmt)
    (test step : Option Expr) (h : n ≤ n') :
    Steps Pairing.scheme w bs Same (exec n (.countedLoop start test step body))
      (countedLoop n' start test step body) := by
  have hloop : ∀ {k w bs}, k ≤ n' → Steps Pairing.scheme w bs Same
      (exec k (.countedLoop none test step body)) (iterations n' test step body) := by
    intro k w bs hk
    cases k with
    | zero => exact steps_quit trivial
    | succ k =>
      rw [countedLoop_none]
      unfold exec
      exact steps_execLoop hbody test step (by omega)
  cases start with
  | none => exact hloop h
  | some s =>
    rcases n with _ | _ | k
    · exact steps_quit trivial
    · exact fun _ _ _ _ _ => .quit ⟨trivial, rfl⟩
    · rw [countedLoop_some, exec_pair]
      refine steps_inNewFrame false fun w₁ => ?_
      refine (steps_exec (.inl rfl) (by omega)).andThen fun flow _ => ?_
      cases flow with
      | normal =>
        rcases k with _ | _ | k
        · exact steps_quit trivial
        · exact fun _ _ _ _ _ => .quit ⟨trivial, rfl⟩
        · rw [ifNormal, execAll_single]
          exact hloop (by omega)
      | _ => exact .pure fun _ => rfl

/-- **The counted loop does what the statement does.** -/
theorem steps_countedLoop {body : Stmt} (hbody : body.BindsNothing) (start : Option Stmt)
    (test step : Option Expr) (h : n + 8 ≤ n') :
    Steps Pairing.scheme w bs Same (countedLoop n start test step body)
      (exec n' (.countedLoop start test step body)) := by
  have hloop : ∀ {k w bs}, n + 5 ≤ k + 1 → Steps Pairing.scheme w bs Same
      (iterations n test step body) (exec (k + 1) (.countedLoop none test step body)) := by
    intro k w bs hk
    rw [countedLoop_none]
    unfold exec
    exact steps_iterations hbody test step (by omega)
  obtain ⟨k, rfl⟩ := Nat.exists_eq_add_of_le' (show 4 ≤ n' by omega)
  cases start with
  | none => exact hloop (by omega)
  | some s =>
    rw [countedLoop_some, exec_pair]
    refine steps_inNewFrame false fun w₁ => ?_
    refine (steps_exec (.inl rfl) (by omega)).andThen fun flow _ => ?_
    cases flow with
    | normal =>
      rw [ifNormal, execAll_single]
      exact hloop (by omega)
    | _ => exact .pure fun _ => rfl

end Steps

end Machine

end Roteiro
