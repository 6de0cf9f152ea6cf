import Roteiro.Proofs.Machine.Closed
import Roteiro.Proofs.Machine.Initializers
import Roteiro.Proofs.Session.History

/-!
# What is kept in a session

A session has one store for all its runs, and a value that was got in one run may be used in a later
one. So what is known of the store at every moment of a run is needed at every moment of all the
past: that all values lead into it, that what they lead to stays what it is, and that functions
which are initializers know their receivers.

* `Since.closed`, `Since.persists` and `Since.prepared`: these hold in every session.
-/

namespace Roteiro

open Scope Machine

namespace Session

variable {host : Host} {s : Session} {past : List Played}

/-- **All values lead into the store**, in a session and at the start of every evaluation in its
past. -/
theorem Since.closed (h : Since host s past) :
    s.machine.store.Closed ∧ ∀ M, Visited past M → ClosedAt M := by
  refine h.along (P := fun s past => s.Closed ∧ ∀ M, Visited past M → ClosedAt M)
    ⟨Store.closed_initial, fun M hM => absurd hM (not_visited_nil M)⟩ fun {_ _ p} _ ih => ?_
  obtain ⟨hend, hreached⟩ := closed_run ih.1 p.fuel p.program
  exact ⟨hend, Visited.forall_cons hreached ih.2⟩

/-- **What has once been in the store is still there.** -/
theorem Since.persists (h : Since host s past) :
    ∀ M, Visited past M → M.final.store.Persists s.machine.store := by
  refine h.along (P := fun s past => ∀ M, Visited past M → M.final.store.Persists s)
    (fun M hM => absurd hM (not_visited_nil M)) fun {_ _ p} _ ih => ?_
  refine Visited.forall_cons (fun M hM => (steady_persists.reached hM).2) fun M hM => ?_
  exact (ih M hM).trans (steady_persists.program p.fuel p.program p.machine)

/-- **Initializers know their receivers**, in a session and at the start of every evaluation in its
past. -/
theorem Since.prepared (h : Since host s past) :
    Prepared (Visited past) s.machine.store ∧
      ∀ M, Visited past M → PreparedAt (Visited past) M := by
  refine h.along (P := fun s past => Prepared (Visited past) s ∧
      ∀ M, Visited past M → PreparedAt (Visited past) M)
    ⟨prepared_initial _, fun M hM => absurd hM (not_visited_nil M)⟩ fun {_ past p} hsince ih => ?_
  have hbefore : ∀ M, Visited past M → Visited (p :: past) M := fun M hM => hM.cons p
  obtain ⟨hend, hreached⟩ := prepared_run (ih.1.mono hbefore)
    (fun M hM => ⟨p, List.mem_cons_self, hM⟩) fun M hM => (hsince.settled.inPlace M hM).names
  exact ⟨hend, Visited.forall_cons hreached fun M hM => (ih.2 M hM).mono hbefore⟩

end Session

end Roteiro
