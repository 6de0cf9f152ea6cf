import Mathlib.Logic.Relation
import Roteiro.Proofs.Session.Stages

/-!
# The frame is restored

Blocks, calls and the steps of loops enter a frame of their own. However they end, the machine comes
back to the frame it was in: this is what one action keeps (`kept_current`), and so it is what every
evaluation keeps, at whatever depth it fails or is cut short. Between two runs of a session the
machine is therefore always among the globals.

* `current_restored`: evaluations, bodies and sessions leave the frame as it was.
-/

namespace Roteiro

namespace Machine

/-- A step in another frame comes back from there, whatever the step itself does. -/
theorem current_inFrame {α : Type} (frame : Ref .frames) (step : Run α) (m : Machine) :
    (final (inFrame frame step) m).current = m.current := by
  unfold final
  rw [inFrame_eq]
  cases step { m with current := frame } <;> rfl

theorem current_execProgram (fuel : Nat) (program : List Stmt) (m : Machine) :
    (final (execProgram fuel program) m).current = m.current := by
  have hstart : ∀ s ∈ program, ∀ m' : Machine, m'.current = m.current →
      (fun _ : Moment => True) ⟨fuel, .exec s, m'⟩ := fun _ _ _ _ => trivial
  exact (kept_current.program (fun _ _ => trivial) (fun _ _ _ => trivial) hstart).1

end Machine

namespace Session

/-- `s.Next s'`: a source is run; or statements that come from elsewhere are resolved or executed,
whatever is wrong with them and however their occurrences are numbered; or something happens to the
host, as when a prompt is written and a line is read. -/
inductive Next (s : Session) : Session → Prop
  | run (fuel : Nat) (source : String) (d : Diagnostics) : Next s (s.run fuel source d).1
  | resolve (nextId : Nat) (program : List Stmt) : Next s (resolve { s with nextId } program).1
  | execute (fuel : Nat) (program : List Stmt) : Next s (s.execute fuel program).1
  | outside (host : Host) : Next s (s.withHost host)

/-- The sessions that there can be. Any of the runs may have failed or been cut short. -/
abbrev Reachable (host : Host) : Session → Prop := Relation.ReflTransGen Next (.start host)

/-- **Whatever a session does next is to run a program**, on the machine with some depths and on some
host. A source that is refused comes to no statement. -/
theorem Next.runs {s s' : Session} (h : s.Next s') : ∃ depths host fuel program,
    s'.machine =
      Machine.final (Machine.execProgram fuel program) { s.machine with depths, host } := by
  cases h with
  | run fuel source d =>
    rcases s.run_cases fuel source d with ⟨program, s', hd, haccepts⟩ | ⟨hrefused, -⟩
    · refine ⟨s'.machine.depths, s.machine.host, fuel, program, ?_⟩
      rw [run_of_accepts haccepts hd, execute_machine, haccepts.ready]
    · refine ⟨(s.run fuel source d).1.machine.depths, s.machine.host, fuel, [], ?_⟩
      dsimp only
      rw [← hrefused.store, ← hrefused.current, ← hrefused.host]
      rfl
  | resolve nextId program => exact ⟨_, s.machine.host, 0, [], rfl⟩
  | execute fuel program =>
    have hend := congrArg Session.machine (execute_machine fuel s program)
    exact ⟨s.machine.depths, s.machine.host, fuel, program, hend⟩
  | outside host => exact ⟨s.machine.depths, host, 0, [], rfl⟩

/-- What a run keeps holds of the machines of all sessions, if it depends neither on the depths nor
on the host. -/
theorem Reachable.carry {host : Host} {P : Machine → Prop} (hstart : P (.initial host))
    (hready : ∀ {m : Machine} depths host, P m → P { m with depths, host })
    (hrun : ∀ {m : Machine} fuel program, P m →
      P (Machine.final (Machine.execProgram fuel program) m))
    {s : Session} (h : Reachable host s) : P s.machine := by
  induction h with
  | refl => exact hstart
  | tail _ hnext ih =>
    obtain ⟨depths, host, fuel, program, heq⟩ := hnext.runs
    rw [heq]
    exact hrun fuel program (hready depths host ih)

theorem Reachable.current {host : Host} {s : Session} (h : Reachable host s) :
    s.machine.current = Store.globals :=
  h.carry (P := fun m => m.current = Store.globals) rfl (fun _ _ h => h) fun fuel program h =>
    (Machine.current_execProgram fuel program _).trans h

/-- **The frame is restored.** Every statement, expression, loop and call, with any fuel and in any
machine, ends in the frame it was started in, whether it gives a result, signals, fails or is cut
short; so do statements that are run in another frame. And in every session, after any runs, the
machine is among the globals, which is where the next accepted source starts. -/
theorem current_restored :
    (∀ M : Machine.Moment, M.final.current = M.machine.current) ∧
    (∀ frame n stmts m,
      (Machine.final (Machine.inFrame frame (Machine.execAll n stmts)) m).current = m.current) ∧
    ∀ host s, Reachable host s → s.machine.current = Store.globals ∧
      ∀ source program s', s.Accepts source program s' → s'.machine.current = Store.globals := by
  refine ⟨Machine.kept_current.run, fun frame n stmts => Machine.current_inFrame frame _, ?_⟩
  intro host s h
  refine ⟨h.current, fun source program s' haccepts => ?_⟩
  rw [haccepts.ready]
  exact h.current

/-- `{ funcao f() { { ausente; } } f(); }` fails in a block in a call in a block. -/
def failsInside : String := "{ funcao f() { { ausente; } } f(); }"

/-- Behind the failure the machine is among the globals again. -/
theorem failsInside_current_restored :
    (((Session.start (.withInput [])).run 30 failsInside .none).2.runtime?.map fun e => e.token.lexeme) =
      some "ausente" ∧
    ((Session.start (.withInput [])).run 30 failsInside .none).1.machine.current = Store.globals :=
  ⟨by decide +kernel, (current_restored.2.2 _ _ (.single (.run 30 failsInside .none))).1⟩

end Session

end Roteiro
