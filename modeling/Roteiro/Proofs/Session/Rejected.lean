import Roteiro.Proofs.Session.Twins

/-!
# Sources that are complained about

A source that something is wrong with is not run, but it leaves traces: numbers have been given out,
and depths may have been recorded under these numbers. From then on the session differs from one in
which the source was never tried. Nobody can tell the difference. The numbers of later programs are
moved by those that were used up, and so are the depths; the functions in the store have older
numbers, under which the depths are as they were.

* `Since.rejected`: a rejected source changes nothing that later runs could show.
-/

namespace Roteiro

open Scope Machine

/-- Numbers from `n` on are moved by `k`; lines are the same. -/
def Renumbering.moved (n k : Nat) : Renumbering where
  line l l' := l' = l
  id i i' := i < n ∧ i' = i ∨ n ≤ i ∧ i' = i + k
  id_iff := by
    intro i i' j j' hi hj
    omega

namespace Session

/-! ### Following a session -/

/-- What is done with a session: a source is run, the complaints are cleared, or something happens to
the host, as when a prompt is written and a line is read. -/
inductive Action where
  | run (fuel : Nat) (source : String)
  | clear
  | outside (change : Host → Host)

/-- A session and the complaints that are held. -/
abbrev Desk := Session × Diagnostics

def perform (desk : Desk) : Action → Desk
  | .run fuel source => desk.1.run fuel source desk.2
  | .clear => (desk.1, .none)
  | .outside change => (desk.1.withHost (change desk.1.machine.host), desk.2)

/-- What can be seen after each of several actions: the host, with all that was written and all that
is left to be read, and what was found wrong. -/
def follow (desk : Desk) : List Action → List (Host × Diagnostics)
  | [] => []
  | action :: actions =>
    let desk := perform desk action
    (desk.1.machine.host, desk.2) :: follow desk actions

variable {ρ : Renumbering} {k : Nat} {s s' : Session}

/-- Where lines are the same, twins of diagnostics are. -/
theorem DiagnosticsTwin.eq (hline : ∀ {l l'}, ρ.line l l' → l' = l) {before : Option RuntimeError}
    {d d' : Diagnostics} (h : DiagnosticsTwin ρ before d d') : d' = d := by
  obtain ⟨reports, runtime?⟩ := d
  obtain ⟨reports', runtime?'⟩ := d'
  obtain ⟨hreports, hruntime⟩ := h
  dsimp only at hreports hruntime
  have hsame : runtime?' = runtime? := by
    rcases hruntime with ⟨hruntime, hruntime'⟩ | hruntime
    · exact hruntime'.trans hruntime.symm
    · cases hruntime with
      | none => rfl
      | @some e e' he =>
        obtain ⟨t, failure⟩ := e
        obtain ⟨t', failure'⟩ := e'
        have htoken : t' = t := he.token.eq hline
        have hfailure : failure' = failure := he.failure
        rw [htoken, hfailure]
  rw [reports_eq_of_twins hline hreports, hsame]

/-- One action more. -/
theorem perform_twins (hline : ∀ {l l'}, ρ.line l l' ↔ l' = l) (h : s.Twin ρ k s') (d : Diagnostics)
    (action : Action) :
    (perform (s, d) action).1.Twin ρ k (perform (s', d) action).1 ∧
      (perform (s', d) action).2 = (perform (s, d) action).2 := by
  cases action with
  | clear => exact ⟨h, rfl⟩
  | outside change =>
    have hhost : change s'.machine.host = change s.machine.host := by rw [h.machine.host]
    exact ⟨⟨⟨h.machine.store, h.machine.current, h.machine.depths, hhost⟩, h.nextId, h.ids⟩, rfl⟩
  | run fuel source =>
    unfold perform
    dsimp only
    rw [run_eq, run_eq]
    by_cases hrejected : (d.add (Token.tokenize source).2).rejected = true
    · rw [if_pos hrejected, if_pos hrejected]
      exact ⟨h, rfl⟩
    · rw [if_neg hrejected, if_neg hrejected]
      have hquiet : (d.add (Token.tokenize source).2).reports = [] := by
        simpa [Diagnostics.rejected] using hrejected
      have htokens := twins_self (fun l => hline.mpr rfl) (Token.tokenize source).1
      obtain ⟨hsession, hd⟩ := readOn_twins h (hline.mpr rfl) htokens fuel hquiet
      exact ⟨hsession, hd.eq hline.mp⟩

/-- **Sessions that are twins cannot be told apart**, whatever is done with both. -/
theorem follow_twins (hline : ∀ {l l'}, ρ.line l l' ↔ l' = l) (h : s.Twin ρ k s') (d : Diagnostics)
    (actions : List Action) : follow (s', d) actions = follow (s, d) actions := by
  induction actions generalizing s s' d with
  | nil => rfl
  | cons action actions ih =>
    obtain ⟨hsession, hd⟩ := perform_twins hline h d action
    unfold follow
    generalize perform (s, d) action = desk at hsession hd ⊢
    generalize perform (s', d) action = desk' at hsession hd ⊢
    obtain ⟨s₁, d₁⟩ := desk
    obtain ⟨s₁', d₁'⟩ := desk'
    dsimp only at hsession hd ⊢
    subst hd
    rw [hsession.machine.host, ih hsession]

/-! ### Rejected sources -/

/-- A session in which a source was rejected is a twin of the one before. -/
theorem Settled.twin_refused {past : List Played} (h : Settled s past) (hrefused : Refused s s') :
    s.Twin (.moved s.nextId (s'.nextId - s.nextId)) (s'.nextId - s.nextId) s' := by
  have hle := hrefused.nextId
  have hdepths : s.machine.depths.Twin (.moved s.nextId (s'.nextId - s.nextId))
      s'.machine.depths := by
    rintro i i' (⟨hi, rfl⟩ | ⟨hi, rfl⟩)
    · -- an older number
      rcases hrefused.depths i' with hdepth | ⟨hge, -⟩
      · exact hdepth
      · exact absurd hi (Nat.not_lt.mpr hge)
    · -- a number that is still to be given out, in either session
      have hnone : s.machine.depths[i + (s'.nextId - s.nextId)]? = none :=
        h.fresh _ (Nat.le_add_right_of_le hi)
      rw [h.fresh i hi]
      rcases hrefused.depths (i + (s'.nextId - s.nextId)) with hdepth | ⟨-, hlt⟩
      · rw [hdepth, hnone]
      · omega
  have hold : ∀ i, i < s.nextId → (Renumbering.moved s.nextId (s'.nextId - s.nextId)).id i i :=
    fun i hi => Or.inl ⟨hi, rfl⟩
  have hnew : ∀ i, s.nextId ≤ i →
      (Renumbering.moved s.nextId (s'.nextId - s.nextId)).id i (i + (s'.nextId - s.nextId)) :=
    fun i hi => Or.inr ⟨hi, rfl⟩
  have htwin := h.twin (fun _ => rfl) hold hdepths
  refine ⟨⟨?_, hrefused.current, hdepths, hrefused.host⟩, by omega, hnew⟩
  rw [hrefused.store]
  exact htwin.store

/-- A run that complains was refused. -/
theorem refused_of_reports {fuel : Nat} {source : String} {d : Diagnostics}
    (h : (s.run fuel source d).2.reports ≠ d.reports) :
    Refused s (s.run fuel source d).1 ∧ (s.run fuel source d).2.runtime? = d.runtime? := by
  rcases s.run_cases fuel source d with ⟨program, s₁, hd, haccepts⟩ | hrefused
  · rw [run_of_accepts haccepts hd, reports_diagnose] at h
    exact absurd rfl h
  · exact hrefused

/-- **A rejected source is invisible.** In every session that has come about by running sources, if
a run adds a complaint then it writes and reads nothing, leaves everything in the store as it is,
and records no failure of a run; and when the complaints are cleared, all that is done later shows
the same as if the source had never been tried. -/
theorem Since.rejected {host : Host} {past : List Played} (h : Since host s past) (fuel : Nat)
    (source : String) (d : Diagnostics) (hreports : (s.run fuel source d).2.reports ≠ d.reports) :
    (s.run fuel source d).1.machine.store = s.machine.store ∧
    (s.run fuel source d).1.machine.current = s.machine.current ∧
    (s.run fuel source d).1.machine.host = s.machine.host ∧
    (s.run fuel source d).2.runtime? = d.runtime? ∧
    ∀ actions, follow ((s.run fuel source d).1, .none) actions = follow (s, .none) actions := by
  obtain ⟨hrefused, hruntime⟩ := refused_of_reports hreports
  refine ⟨hrefused.store, hrefused.current, hrefused.host, hruntime, fun actions => ?_⟩
  exact follow_twins Iff.rfl (h.settled.twin_refused hrefused) .none actions

/-- The inner initializer is rejected, but a number is used up and a depth recorded before. -/
def rejectedSource : String := "{ var x = nulo; { var x = x; } }"

example : ((start (.withInput [])).run 9 rejectedSource .none).1.nextId = 1 ∧
    ((start (.withInput [])).run 9 rejectedSource .none).1.machine.depths[0]? = some 0 := by
  decide +kernel

theorem rejectedSource_rejected :
    ((start (.withInput [])).run 9 rejectedSource .none).2.reports ≠ [] ∧
    ∀ actions, follow (((start (.withInput [])).run 9 rejectedSource .none).1, .none) actions =
      follow (start (.withInput []), .none) actions := by
  have hreports : ((start (.withInput [])).run 9 rejectedSource .none).2.reports ≠ [] := by
    decide +kernel
  exact ⟨hreports, (Since.rejected .start 9 rejectedSource .none hreports).2.2.2.2⟩

end Session

end Roteiro
