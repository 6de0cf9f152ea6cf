import Roteiro.Proofs.Session.Twins
import Roteiro.Proofs.Token.Seam

/-!
# A source further down

The same source may stand on other lines, below something else. It is run in the same way there;
only the tokens it leaves in the store, and the one that a failure is blamed on, may be further
down. Which of them are is the same wherever the source stands: those of its own code are, those of
code that was there before are not. To tell them apart, put the source below every line that the
session knows.

* `Since.linesUpTo`: there is a last line that a session knows.
* `runFrom_carried`: from below that line to any other place, exactly the tokens of the source move.
* `runFrom_moved`: a source is run in the same way wherever it stands.
-/

namespace Roteiro

open Scope Machine

/-- Lines up to `K` stay, and those behind `K` are carried to behind `j`. -/
def Renumbering.carried (K j : Nat) : Renumbering where
  line l l' := l ≤ K ∧ l' = l ∨ K < l ∧ l' + K = l + j
  id i i' := i' = i
  id_iff := @Renumbering.id_iff_of_eq

/-- Every line stays or is `j` further down. -/
def Renumbering.lowered (j : Nat) : Renumbering where
  line l l' := l' = l ∨ l' = l + j
  id i i' := i' = i
  id_iff := @Renumbering.id_iff_of_eq

/-- The same failure, blamed on a token that is `j` lines further down. -/
def RuntimeError.lowered (j : Nat) (e : RuntimeError) : RuntimeError :=
  { e with token := { e.token with line := e.token.line + j } }

namespace Session

/-- Runs a source of which the first line has the given number. -/
def runFrom (line fuel : Nat) (s : Session) (source : String) (d : Diagnostics) :
    Session × Diagnostics :=
  let (tokens, faults) := Token.tokenizeFrom line source
  if (d.add faults).rejected then (s, d.add faults) else s.readOn fuel tokens (d.add faults)

theorem run_eq_runFrom (fuel : Nat) (s : Session) (source : String) (d : Diagnostics) :
    s.run fuel source d = s.runFrom 1 fuel source d := rfl

/-- Whether a run of the source is stopped at a token of the source itself. To tell, the source is
put below the line `K`, behind which nothing else stands. If anything was found wrong before, then
nothing is run. -/
def blamesOwn (K fuel : Nat) (s : Session) (source : String) (d : Diagnostics) : Bool :=
  !d.rejected && (s.runFrom (K + 1) fuel source .none).2.runtime?.any (K < ·.token.line)

/-- The session knows no line behind `K`: it stays its own twin whatever becomes of those lines. -/
def LinesUpTo (K : Nat) (s : Session) : Prop :=
  ∀ ρ : Renumbering, (∀ l, l ≤ K → ρ.line l l) → (∀ i, ρ.id i i) → s.Twin ρ 0 s

/-- The second run is the first one with its source `j` lines further down. The failure is, if it is
blamed on a token of the source itself. -/
structure Moved (own : Bool) (j : Nat) (run run' : Session × Diagnostics) : Prop where
  session : run.1.Twin (.lowered j) 0 run'.1
  reports : run'.2.reports = run.2.reports
  runtime : run'.2.runtime? = run.2.runtime?.map fun e => if own then e.lowered j else e

variable {ρ : Renumbering} {s : Session} {K : Nat}

/-! ### The lines that a session knows -/

theorem exists_lines (tokens : List Token) : ∃ K, ∀ t ∈ tokens, t.line ≤ K := by
  induction tokens with
  | nil => exact ⟨0, nofun⟩
  | cons t tokens ih =>
    obtain ⟨K, hK⟩ := ih
    refine ⟨max t.line K, List.forall_mem_cons.mpr ⟨Nat.le_max_left _ _, fun u hu => ?_⟩⟩
    exact Nat.le_trans (hK u hu) (Nat.le_max_right _ _)

/-- A new session has no lines and no numbers. -/
theorem twin_start (host : Host) (hid : ∀ i, ρ.id i i) :
    (Session.start host).Twin ρ 0 (Session.start host) := by
  have hclosure : Closure.Twin ρ default default := ⟨.mk .none .nil .nil, rfl, rfl⟩
  have hstore : Store.Twin ρ .initial .initial := by
    refine ⟨rfl, rfl, rfl, rfl, fun f => ?_, rfl, fun c => ?_⟩
    · simpa [Store.closure, Store.initial] using hclosure
    · have hmethods : methodsTwin ρ (default : ClassInfo).methods (default : ClassInfo).methods :=
        .nil
      exact ⟨rfl, by simpa [Store.classInfo, Store.initial] using hmethods⟩
  exact ⟨⟨hstore, rfl, fun _ => rfl, rfl⟩, rfl, fun i _ => hid i⟩

theorem linesUpTo_start (host : Host) (K : Nat) : (Session.start host).LinesUpTo K :=
  fun _ _ hid => twin_start host hid

theorem LinesUpTo.mono (h : s.LinesUpTo K) {L : Nat} (hle : K ≤ L) : s.LinesUpTo L :=
  fun ρ hline hid => h ρ (fun l hl => hline l (Nat.le_trans hl hle)) hid

/-- A run adds the lines of its source. -/
theorem LinesUpTo.run (h : s.LinesUpTo K) (fuel : Nat) (source : String) (d : Diagnostics) :
    ∃ K', (s.run fuel source d).1.LinesUpTo K' := by
  rw [run_eq]
  by_cases hrejected : (d.add (Token.tokenize source).2).rejected = true
  · rw [if_pos hrejected]
    exact ⟨K, h⟩
  · rw [if_neg hrejected]
    have hquiet : (d.add (Token.tokenize source).2).reports = [] := by
      simpa [Diagnostics.rejected] using hrejected
    obtain ⟨L, hL⟩ := exists_lines (Token.tokenize source).1
    refine ⟨K + L + 1, fun ρ hline hid => ?_⟩
    have hsession := h ρ (fun l hl => hline l (by omega)) hid
    have htokens :
        List.Forall₂ (Token.Twin ρ) (Token.tokenize source).1 (Token.tokenize source).1 :=
      List.forall₂_same.mpr fun t ht => ⟨rfl, rfl, hline _ (by have := hL t ht; omega)⟩
    exact (readOn_twins hsession (hline 1 (by omega)) htokens fuel hquiet).1

theorem LinesUpTo.withHost (h : s.LinesUpTo K) (host : Host) : (s.withHost host).LinesUpTo K := by
  intro ρ hline hid
  obtain ⟨hmachine, hnextId, hids⟩ := h ρ hline hid
  exact ⟨⟨hmachine.store, hmachine.current, hmachine.depths, rfl⟩, hnextId, hids⟩

/-- **There is a last line that a session knows.** -/
theorem Since.linesUpTo {host : Host} {past : List Played} (h : Since host s past) :
    ∃ K, s.LinesUpTo K := by
  induction h with
  | start => exact ⟨0, linesUpTo_start host 0⟩
  | refused _ fuel source d _ ih | accepted _ fuel _ _ ih =>
    obtain ⟨K, hK⟩ := ih
    exact hK.run fuel _ _
  | outside _ host' ih =>
    obtain ⟨K, hK⟩ := ih
    exact ⟨K, hK.withHost host'⟩

/-- What a session has in store is its own twin. -/
theorem Since.twin_same {host : Host} {past : List Played} (h : Since host s past) :
    s.machine.store.Twin .same s.machine.store := by
  obtain ⟨K, hlines⟩ := h.linesUpTo
  exact (hlines .same (fun _ _ => rfl) fun _ => rfl).machine.store

/-! ### From one place to another -/

variable {line line' : Nat} {source : String} {d : Diagnostics}

/-- If nothing was found wrong before, the tokens of the source are read, on whatever lines. -/
theorem runFrom_of_scanned (hscan : (Token.tokenize source).2 = []) (hd : d.reports = [])
    (line fuel : Nat) (s : Session) :
    s.runFrom line fuel source d = s.readOn fuel (Token.tokenizeFrom line source).1 d := by
  have hfaults := Token.tokenizeFrom_faults 1 line source hscan
  have hrejected : d.rejected = false := by simp [Diagnostics.rejected, hd]
  unfold runFrom
  simp only [hfaults, add_nil, hrejected, Bool.false_eq_true, if_false]

/-- If there are complaints already, nothing is done. -/
theorem runFrom_of_reports (hscan : (Token.tokenize source).2 = []) (hd : d.reports ≠ [])
    (line fuel : Nat) (s : Session) : s.runFrom line fuel source d = (s, d) := by
  have hfaults := Token.tokenizeFrom_faults 1 line source hscan
  have hrejected : d.rejected = true := by simp [Diagnostics.rejected, hd]
  unfold runFrom
  simp only [hfaults, add_nil, hrejected, if_true]

/-- What stopped earlier runs is only known until the next one is stopped. -/
theorem readOn_runtime (fuel : Nat) (s : Session) (tokens : List Token) (d : Diagnostics) :
    (s.readOn fuel tokens d).2.runtime? =
      (s.readOn fuel tokens .none).2.runtime?.or d.runtime? := by
  unfold readOn
  dsimp only
  split
  · rfl
  · split
    · generalize Session.execute fuel _ _ = result
      cases result.2 <;> rfl
    · rfl

/-- What is known of a run on some lines and of the run on other lines. -/
theorem runFrom_twins (h : s.Twin ρ 0 s) (hone : ρ.line 1 1)
    (hline : ∀ n, ρ.line (line + n) (line' + n)) (hscan : (Token.tokenize source).2 = [])
    (hd : d.reports = []) (fuel : Nat) :
    (s.runFrom line fuel source d).1.Twin ρ 0 (s.runFrom line' fuel source d).1 ∧
      DiagnosticsTwin ρ d.runtime? (s.runFrom line fuel source d).2
        (s.runFrom line' fuel source d).2 := by
  rw [runFrom_of_scanned hscan hd, runFrom_of_scanned hscan hd]
  have htokens := Token.tokenizeFrom_twins line line' source fun n _ => hline n
  exact readOn_twins h hone htokens fuel hd

theorem line_carried (K j n : Nat) : (Renumbering.carried K j).line (K + 1 + n) (j + 1 + n) :=
  Or.inr ⟨by omega, by omega⟩

theorem LinesUpTo.carried (h : s.LinesUpTo K) (j : Nat) : s.Twin (.carried K j) 0 s :=
  h _ (fun _ hl => Or.inl ⟨hl, rfl⟩) fun _ => rfl

theorem LinesUpTo.lowered (h : s.LinesUpTo K) (j : Nat) : s.Twin (.lowered j) 0 s :=
  h _ (fun _ _ => Or.inl rfl) fun _ => rfl

/-- **From below all that the session knows to any other place**, exactly the lines of the source
move. -/
theorem runFrom_carried (hK : s.LinesUpTo K) (hone : 1 ≤ K) (hscan : (Token.tokenize source).2 = [])
    (d : Diagnostics) (fuel j : Nat) :
    (s.runFrom (K + 1) fuel source d).1.Twin (.carried K j) 0
      (s.runFrom (j + 1) fuel source d).1 := by
  by_cases hd : d.reports = []
  · exact (runFrom_twins (hK.carried j) (Or.inl ⟨hone, rfl⟩) (line_carried K j) hscan hd fuel).1
  · rw [runFrom_of_reports hscan hd, runFrom_of_reports hscan hd]
    exact hK.carried j

/-- What a failure is blamed on is further down, if it was behind the line `K`. -/
theorem ErrorTwin.carried {e e₀ e' : RuntimeError} {j : Nat} (h₀ : ErrorTwin (.carried K 0) e e₀)
    (h : ErrorTwin (.carried K j) e e') : e' = if K < e.token.line then e₀.lowered j else e₀ := by
  obtain ⟨⟨kind₀, lexeme₀, line₀⟩, failure₀⟩ := e₀
  obtain ⟨⟨kind', lexeme', line'⟩, failure'⟩ := e'
  obtain ⟨⟨hkind₀, hlexeme₀, hline₀⟩, hfailure₀⟩ := h₀
  obtain ⟨⟨hkind, hlexeme, hline⟩, hfailure⟩ := h
  dsimp only at hkind₀ hlexeme₀ hfailure₀ hkind hlexeme hfailure
  subst hkind₀ hlexeme₀ hfailure₀ hkind hlexeme hfailure
  dsimp only [Renumbering.carried] at hline₀ hline
  split
  · have hlines : line' = line₀ + j := by omega
    rw [hlines]
    rfl
  · have hlines : line' = line₀ := by omega
    rw [hlines]

/-- Wherever the source stands, it fails in the same way, at a token that has moved with it if it is
one of its own. -/
theorem runtime_lowered (hK : s.LinesUpTo K) (hone : 1 ≤ K) (hscan : (Token.tokenize source).2 = [])
    (hd : d.reports = []) (fuel j : Nat) :
    (s.runFrom (j + 1) fuel source d).2.runtime? = (s.run fuel source d).2.runtime?.map fun e =>
      if s.blamesOwn K fuel source d then e.lowered j else e := by
  -- the failures of these runs alone, whatever stopped an earlier run
  let failure? (line : Nat) : Option RuntimeError :=
    (s.readOn fuel (Token.tokenizeFrom line source).1 .none).2.runtime?
  have hruntime : ∀ line, (s.runFrom line fuel source d).2.runtime? =
      (failure? line).or d.runtime? := by
    intro line
    rw [runFrom_of_scanned hscan hd, readOn_runtime]
  have hcarried : ∀ j,
      Option.Rel (ErrorTwin (.carried K j)) (failure? (K + 1)) (failure? (j + 1)) := by
    intro j
    have hdiagnostics := (runFrom_twins (hK.carried j) (Or.inl ⟨hone, rfl⟩) (line_carried K j) hscan
      (d := .none) rfl fuel).2
    rw [runFrom_of_scanned hscan rfl, runFrom_of_scanned hscan rfl] at hdiagnostics
    rcases hdiagnostics.runtime with ⟨hfailure, hfailure'⟩ | hfailures
    · have hnone : failure? (K + 1) = none := hfailure
      have hnone' : failure? (j + 1) = none := hfailure'
      rw [hnone, hnone']
      exact .none
    · exact hfailures
  have hown : s.blamesOwn K fuel source d = (failure? (K + 1)).any (K < ·.token.line) := by
    have hrejected : d.rejected = false := by simp [Diagnostics.rejected, hd]
    rw [blamesOwn, hrejected, runFrom_of_scanned hscan rfl]
    rfl
  have hstep := hcarried 0
  have hbelow := hcarried j
  rw [run_eq_runFrom, hruntime, hruntime, hown]
  generalize failure? (K + 1) = far? at hstep hbelow ⊢
  generalize failure? (0 + 1) = step? at hstep ⊢
  generalize failure? (j + 1) = below? at hbelow ⊢
  cases hstep with
  | none =>
    cases hbelow
    simp
  | some h₀ =>
    cases hbelow with
    | some h => simp [h₀.carried h]

/-- **A source is run in the same way wherever it stands**, if nothing is wrong with it. -/
theorem runFrom_moved (hK : s.LinesUpTo K) (hone : 1 ≤ K) (hscan : (Token.tokenize source).2 = [])
    (fuel j : Nat) (hquiet : (s.run fuel source d).2.reports = d.reports) :
    Moved (s.blamesOwn K fuel source d) j (s.run fuel source d)
      (s.runFrom (j + 1) fuel source d) := by
  by_cases hd : d.reports = []
  · have hlines : ∀ n, (Renumbering.lowered j).line (1 + n) (j + 1 + n) :=
      fun n => Or.inr (by omega)
    obtain ⟨hsession, hdiagnostics⟩ :=
      runFrom_twins (hK.lowered j) (Or.inl rfl) hlines hscan hd fuel
    refine ⟨hsession, ?_, runtime_lowered hK hone hscan hd fuel j⟩
    have hreports := hdiagnostics.reports
    rw [← run_eq_runFrom, hquiet, hd] at hreports
    rw [hquiet, hd, List.forall₂_nil_left_iff.mp hreports]
  · -- then no source is run
    have hown : s.blamesOwn K fuel source d = false := by
      simp [blamesOwn, Diagnostics.rejected, hd]
    rw [hown, run_eq_runFrom, runFrom_of_reports hscan hd, runFrom_of_reports hscan hd]
    exact ⟨hK.lowered j, rfl, by simp⟩

end Session

end Roteiro
