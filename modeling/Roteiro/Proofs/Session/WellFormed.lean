import Roteiro.Proofs.Machine.WellFormed
import Roteiro.Proofs.Session.Restored

/-!
# The store of a session is well-formed

Sources may fail or be cut short anywhere, and what they have made by then stays: the frames that
were left in a hurry, the functions that lie in them, the arrays that hold themselves. None of it
ever refers to something that is not there, and no way outwards through the frames goes on for ever.

* `Reachable.intact`: what makes stores well-formed holds in every session.
* `wellFormed_store`: stores are well-formed in every session and at every moment of its runs, and
  what is in them lasts.
-/

namespace Roteiro

open Machine

namespace Session

theorem Reachable.intact {host : Host} {s : Session} (h : Reachable host s) : s.machine.Intact :=
  Reachable.carry (intact_initial host) (fun depths host h => h.ready depths host)
    (fun fuel program h => h.run fuel program) h

/-- What is in the store of a session lasts, whatever is done next. -/
theorem Next.lasts {s s' : Session} (h : s.Next s') : s.machine.store.Lasts s'.machine.store := by
  obtain ⟨depths, host, fuel, program, heq⟩ := h.runs
  rw [heq]
  exact steady_lasts.program fuel program { s.machine with depths, host }

/-- **Stores are well-formed, and what is in them lasts.** In every session, after any runs:

* all references in the store lead to something in the store, and the chain of frames from every
  frame ends at the globals;
* so they do at the start and at the end of every evaluation in every run that may follow
  (`Next.runs`), however it ends, and what was in the store before the run lasts to each of them and
  from there to the end of the run;
* from any machine whatsoever, what is in the store lasts throughout an evaluation, from its start
  to the start of any evaluation inside of it, to the end of that one, and to its own end;
* whatever is done with the session later, it lasts. -/
theorem wellFormed_store {host : Host} {s : Session} (h : Reachable host s) :
    s.machine.WellFormed ∧
    (∀ depths host fuel program M, Reached fuel program { s.machine with depths, host } M →
      M.WellFormed ∧ s.machine.store.Lasts M.machine.store ∧ M.final.store.Lasts
        (Machine.final (execProgram fuel program) { s.machine with depths, host }).store) ∧
    (∀ M X : Moment, During X M → M.machine.store.Lasts X.machine.store ∧
      X.machine.store.Lasts X.final.store ∧ X.final.store.Lasts M.final.store) ∧
    ∀ s', Relation.ReflTransGen Next s s' → s.machine.store.Lasts s'.machine.store := by
  have hintact := h.intact
  refine ⟨hintact.wellFormed, fun depths host fuel program M hM => ?_, fun M X hX => ?_,
    fun s' hs' => ?_⟩
  · exact ⟨(hintact.ready depths host).reached hM, steady_lasts.reached hM⟩
  · obtain ⟨hstart, hend⟩ := steady_lasts.during hX
    exact ⟨hstart, steady_lasts.ran X.fuel X.task X.machine, hend⟩
  · induction hs' with
    | refl => exact steady_lasts.refl s.machine
    | tail _ hnext ih => exact steady_lasts.trans ih hnext.lasts

/-- A function that lies in the frame that binds it, an instance with a method of its own in a
field, an array that holds itself, and a failure. -/
def tangled : String :=
  "\x7b funcao f() \x7b f; \x7d \x7d classe A \x7b m() \x7b \x7d \x7d var x = A(); x.g = x.m; " ++
  "var a = []; a[0] = a; ausente;"

/-- The session in which it has been run. -/
def tangledSession : Session := ((Session.start (.withInput [])).run 30 tangled .none).1

/-- What is tangled is well-formed, so is every statement that is executed next, and all of it lasts
in later runs. -/
theorem tangled_wellFormed :
    let s := tangledSession.machine.store
    ((s.frame ⟨1⟩).bindings.find? "f" = some (.function ⟨0⟩) ∧ (s.closure ⟨0⟩).frame = ⟨1⟩ ∧
      (s.instanceAt ⟨0⟩).fields.find? "g" = some (.function ⟨1⟩) ∧
      s.lookupAt? (s.closure ⟨1⟩).frame 0 selfName = some (.instanceRef ⟨0⟩) ∧
      (s.table ⟨0⟩).get? "0" = some (.array ⟨0⟩)) ∧
    tangledSession.machine.WellFormed ∧
    (∀ depths host fuel stmt, Moment.WellFormed
      ⟨fuel, .exec stmt, { tangledSession.machine with depths, host }⟩) ∧
    ∀ fuel source d, s.Lasts (tangledSession.run fuel source d).1.machine.store := by
  have hreachable : Reachable (.withInput []) tangledSession := .single (.run 30 tangled .none)
  obtain ⟨hmachine, hreached, -, hlater⟩ := wellFormed_store hreachable
  refine ⟨by decide +kernel, hmachine, fun depths host fuel stmt => ?_, fun fuel source d => ?_⟩
  · exact (hreached depths host fuel [stmt] _ (.here (.refl _))).1
  · exact hlater _ (.single (.run fuel source d))

end Session

end Roteiro
