import Roteiro.Proofs.Machine.Blame
import Roteiro.Proofs.Session.Construction
import Roteiro.Proofs.Session.Lines

/-!
# Diagnostics point into the source

Whatever is wrong with a source, there is a line of it to look at. Complaints are about characters,
about tokens, or about the end. A failure is blamed on a token of the code that was run. All code of
a first run comes from the source, and its tokens are those of the source, but for the operators of
counting steps, which stand on the lines of the steps.

* `Since.failure`: a failure is blamed on the token of an evaluation, in every session.
* `start_run_points`: all that may be wrong with the first source of a session.
-/

namespace Roteiro

open Grammar Machine Scope

namespace Session

variable {host : Host} {s s' : Session} {past : List Played} {source : String}
  {program : List Stmt} {d : Diagnostics} {fuel : Nat} {e : RuntimeError}

/-- The source has this line: one for each newline, and one more. -/
def LineOf (source : String) (line : Nat) : Prop :=
  1 ≤ line ∧ line ≤ 1 + Token.newlines source.toList

/-- The complaint is about a line of the source. -/
def PointsInto (source : String) (r : Report) : Prop :=
  ∃ line, r.line? = some line ∧ LineOf source line

/-! ### Failures -/

/-- A run that fails comes to a failure of its program. -/
theorem failed_of_execute (h : (s.execute fuel program).2 = .failed e) :
    ∃ m', execProgram fuel program s.machine = .error (.failed e) m' := by
  unfold execute at h
  split at h
  · cases h
  · next hrun =>
    cases h
    exact ⟨_, hrun⟩
  · cases h

/-- **A failure is blamed on the token of an evaluation.** In every session, an accepted program
that fails has come to an evaluation on whose token the failure is blamed. -/
theorem Since.failure (h : Since host s past) (hd : d.reports = [])
    (haccepts : s.Accepts source program s') (hfailed : (s'.execute fuel program).2 = .failed e) :
    ∃ M, Reached fuel program s'.machine M ∧ M.task.blames? = some e.token := by
  obtain ⟨m', hrun⟩ := failed_of_execute hfailed
  obtain ⟨M, hM, hown | hlost⟩ := failure_reached hrun
  · exact ⟨M, hM, hown⟩
  · -- no initializer loses its receiver
    obtain @⟨n, c, paren, vs, m, flow, m₁, hinit, hbody, hlost⟩ := hlost
    have hsince := Since.accepted h fuel hd haccepts
    obtain ⟨r, -, hends⟩ := hsince.applies ⟨_, List.mem_cons_self, hM⟩ hinit
    have hfound := (hends flow m₁ hbody).1
    rw [hlost] at hfound
    cases hfound

/-- What is blamed in the first run of a session is supplied by the source. -/
theorem supplies_of_failure (haccepts : (start host).Accepts source program s')
    (hfailed : (s'.execute fuel program).2 = .failed e) :
    Supplies (Token.tokenize source).1 e.token := by
  obtain ⟨M, hM, hown⟩ := Since.failure (d := .none) .start rfl haccepts hfailed
  have hderives := (Parser.parseProgram_builds haccepts.parsed).1
  have hprogram : Supplied (blamedInStmts program) (Token.tokenize source).1 :=
    hderives.supplied.mono (List.takeWhile_subset _)
  have hstore : s'.machine.store = .initial := by rw [haccepts.ready]; rfl
  exact blames_in_code hprogram (hstore ▸ Store.codes_initial _) hM hown

/-- Tokens of the source stand on its lines, and so do the operators of its steps. -/
theorem line_of_supplies {t : Token} (h : Supplies (Token.tokenize source).1 t) :
    LineOf source t.line := by
  rcases h with ht | ⟨step, hstep, -, rfl⟩
  · exact Token.line_of_mem_tokenize.1 t ht
  · rw [line_stepOperator]
    exact Token.line_of_mem_tokenize.1 step hstep

/-! ### Complaints -/

/-- Lines of the source stay, and there are no others. -/
def onLinesOf (source : String) : Renumbering where
  line l l' := l' = l ∧ LineOf source l
  id i i' := i' = i
  id_iff := @Renumbering.id_iff_of_eq

/-- Complaints about tokens and scopes point into the source. -/
theorem points_of_readOn (hd : d.reports = []) :
    ∀ r ∈ ((start host).readOn fuel (Token.tokenize source).1 d).2.reports,
      PointsInto source r := by
  -- the tokens are twins of themselves, under a renumbering that knows only lines of the source
  let ρ := onLinesOf source
  have hone : ρ.line 1 1 := ⟨rfl, Nat.le_refl 1, Nat.le_add_right _ _⟩
  have htokens : List.Forall₂ (Token.Twin ρ) (Token.tokenize source).1 (Token.tokenize source).1 :=
    List.forall₂_same.mpr fun t ht => ⟨rfl, rfl, rfl, Token.line_of_mem_tokenize.1 t ht⟩
  have hrun := (readOn_twins (twin_start host fun _ => rfl) hone htokens fuel hd).2
  intro r hr
  have htwin := List.forall₂_same.mp hrun.reports r hr
  cases htwin with
  | parse ht | resolve ht => exact ⟨_, rfl, ht.line.2⟩

/-- **Every diagnostic points into the source.** Whatever the first source of a session is and
whatever was wrong before, each complaint that is added has a line of the source; and what stops the
run, if anything does, is blamed on a token of the source or on the operator that a counting step of
the source stands for, on the line of that step. -/
theorem start_run_points (host : Host) (fuel : Nat) (source : String) (d : Diagnostics) :
    let found := ((start host).run fuel source d).2
    (∃ new, found.reports = d.reports ++ new ∧ ∀ r ∈ new, PointsInto source r) ∧
      (found.runtime? = d.runtime? ∨ ∃ e, found.runtime? = some e ∧
        LineOf source e.token.line ∧ Supplies (Token.tokenize source).1 e.token) := by
  intro found
  constructor
  · by_cases hrejected : (d.add (Token.tokenize source).2).rejected = true
    · have hfound : found = d.add (Token.tokenize source).2 := by
        simp only [found, run_eq, hrejected, if_true]
      rw [hfound]
      exact ⟨_, rfl, Token.line_of_mem_tokenize.2⟩
    · have hquiet : (d.add (Token.tokenize source).2).reports = [] := by
        simpa [Diagnostics.rejected] using hrejected
      have hd : d.reports = [] := (List.append_eq_nil_iff.mp hquiet).1
      have hfound : found = ((start host).readOn fuel (Token.tokenize source).1
          (d.add (Token.tokenize source).2)).2 := by
        simp only [found, run_eq]
        rw [if_neg hrejected]
      rw [hfound, hd]
      exact ⟨_, rfl, points_of_readOn hquiet⟩
  · rcases run_cases (start host) fuel source d with ⟨program, s', hd, haccepts⟩ | ⟨-, hruntime⟩
    · have hfound : found = Ending.diagnose (s'.execute fuel program).2 d := by
        simp only [found, run_of_accepts haccepts hd]
      rw [hfound]
      cases hending : (s'.execute fuel program).2 with
      | finished | outOfFuel => exact .inl rfl
      | failed e =>
        have hsupplies := supplies_of_failure haccepts hending
        exact .inr ⟨e, rfl, line_of_supplies hsupplies, hsupplies⟩
    · exact .inl hruntime

/-- The failure of a step is blamed on an operator that is not written. -/
example : ((start (.withInput [])).run 9 "var a = nulo;\na++;" .none).2.runtime?.map (·.token) =
    some ⟨.plus, "+", 2⟩ := by
  decide +kernel

end Session

end Roteiro
