import Roteiro.Proofs.Machine.Twins
import Roteiro.Proofs.Parser.Twins
import Roteiro.Proofs.Session.History

/-!
# Sessions side by side

Two sessions are twins if what they have in store differs in lines and in the numbers of occurrences
only. When the same source, or a source on other lines, is run in both, they stay twins: they read
and write the same, complain about the same and stop for the same reason.

* `readOn_twins`: twins of tokens are run in parallel in sessions that are twins.
* `Settled.twin`: a session is a twin of itself when its numbers correspond to themselves.
-/

namespace Roteiro

open Scope Machine

namespace Session

/-- Sessions that differ in lines and in numbers. The second one has given out `k` numbers more. -/
structure Twin (ρ : Renumbering) (k : Nat) (s s' : Session) : Prop where
  machine : s.machine.Twin ρ s'.machine
  nextId : s'.nextId = s.nextId + k
  ids : ∀ i, s.nextId ≤ i → ρ.id i (i + k)

/-- What stopped a run, and what stopped another one. -/
structure ErrorTwin (ρ : Renumbering) (e e' : RuntimeError) : Prop where
  token : e.token.Twin ρ e'.token
  failure : e'.failure = e.failure

/-- What was found wrong in two runs, both of which started with `before`. -/
structure DiagnosticsTwin (ρ : Renumbering) (before : Option RuntimeError) (d d' : Diagnostics) :
    Prop where
  reports : List.Forall₂ (Report.Twin ρ) d.reports d'.reports
  runtime : d.runtime? = before ∧ d'.runtime? = before ∨
    Option.Rel (ErrorTwin ρ) d.runtime? d'.runtime?

/-- The stages of a run behind the tokens, when there is nothing to complain about so far. -/
def readOn (fuel : Nat) (s : Session) (tokens : List Token) (d : Diagnostics) :
    Session × Diagnostics :=
  let parsed := Parser.parseProgram tokens s.nextId
  let s := { s with nextId := parsed.nextId }
  let d := d.add parsed.reports
  match parsed.tree? with
  | none => (s, d)
  | some program =>
    let (s, complaints) := s.resolve program
    let d := d.add complaints
    if complaints.isEmpty then
      let (s, ending) := s.execute fuel program
      (s, Ending.diagnose ending d)
    else (s, d)

theorem run_eq (fuel : Nat) (s : Session) (source : String) (d : Diagnostics) :
    s.run fuel source d =
      if (d.add (Token.tokenize source).2).rejected then (s, d.add (Token.tokenize source).2)
      else s.readOn fuel (Token.tokenize source).1 (d.add (Token.tokenize source).2) := rfl

variable {ρ : Renumbering} {k : Nat} {s s' : Session}

/-- Programs that are twins are run in parallel. -/
theorem execute_twins (h : s.Twin ρ k s') (fuel : Nat) {program program' : List Stmt}
    (hprogram : List.Forall₂ (Stmt.Twin ρ) program program') {d d' : Diagnostics}
    {before : Option RuntimeError} (hd : DiagnosticsTwin ρ before d d') :
    (s.execute fuel program).1.Twin ρ k (s'.execute fuel program').1 ∧
      DiagnosticsTwin ρ before (Ending.diagnose (s.execute fuel program).2 d)
        (Ending.diagnose (s'.execute fuel program').2 d') := by
  have hended := execProgram_twins fuel hprogram h.machine
  unfold execute
  generalize execProgram fuel program s.machine = result at hended ⊢
  generalize execProgram fuel program' s'.machine = result' at hended ⊢
  cases hended with
  | ok hm => exact ⟨⟨hm, h.nextId, h.ids⟩, hd⟩
  | error he hm =>
    cases he with
    | failed ht failure => exact ⟨⟨hm, h.nextId, h.ids⟩, hd.reports, .inr (.some ⟨ht, rfl⟩)⟩
    | outOfFuel => exact ⟨⟨hm, h.nextId, h.ids⟩, hd⟩

theorem resolve_session_twins (h : s.Twin ρ k s') {program program' : List Stmt}
    (hprogram : List.Forall₂ (Stmt.Twin ρ) program program') :
    (s.resolve program).1.Twin ρ k (s'.resolve program').1 ∧
      List.Forall₂ (Report.Twin ρ) (s.resolve program).2 (s'.resolve program').2 := by
  have hanalysis := resolve_twins hprogram h.machine.depths
  exact ⟨⟨⟨h.machine.store, h.machine.current, hanalysis.depths, h.machine.host⟩, h.nextId, h.ids⟩,
    hanalysis.reports⟩

/-- **Twins of tokens are run in parallel.** -/
theorem readOn_twins (h : s.Twin ρ k s') (hline : ρ.line 1 1) {tokens tokens' : List Token}
    (htokens : List.Forall₂ (Token.Twin ρ) tokens tokens') (fuel : Nat) {d : Diagnostics}
    (hd : d.reports = []) :
    (s.readOn fuel tokens d).1.Twin ρ k (s'.readOn fuel tokens' d).1 ∧
      DiagnosticsTwin ρ d.runtime? (s.readOn fuel tokens d).2 (s'.readOn fuel tokens' d).2 := by
  have hparsed := Parser.parseProgram_twins htokens hline h.ids
  have hle := Parser.le_nextId_parseProgram tokens s.nextId
  rw [← h.nextId] at hparsed
  unfold readOn
  generalize Parser.parseProgram tokens s.nextId = parsed at hparsed hle ⊢
  generalize Parser.parseProgram tokens' s'.nextId = parsed' at hparsed ⊢
  obtain ⟨tree?, nextId, reports⟩ := parsed
  obtain ⟨tree?', nextId', reports'⟩ := parsed'
  obtain ⟨htree, hnext, hreports⟩ := hparsed
  have hread : Twin ρ k { s with nextId } { s' with nextId := nextId' } :=
    ⟨h.machine, hnext, fun i hi => h.ids i (Nat.le_trans hle hi)⟩
  have hadded : ∀ {rs rs' : List Report}, List.Forall₂ (Report.Twin ρ) rs rs' →
      DiagnosticsTwin ρ d.runtime? (d.add rs) (d.add rs') := by
    intro rs rs' hrs
    refine ⟨?_, .inl ⟨rfl, rfl⟩⟩
    simp only [Diagnostics.add, hd, List.nil_append]
    exact hrs
  dsimp only at htree hreports ⊢
  cases htree with
  | none => exact ⟨hread, hadded hreports⟩
  | @some program program' hprogram =>
    dsimp only
    obtain ⟨hresolved, hcomplaints⟩ := resolve_session_twins hread hprogram
    have hall : ∀ {rs rs' : List Report}, List.Forall₂ (Report.Twin ρ) rs rs' →
        DiagnosticsTwin ρ d.runtime? ((d.add reports).add rs) ((d.add reports').add rs') := by
      intro rs rs' hrs
      simp only [Diagnostics.add, List.append_assoc]
      exact hadded (List.rel_append hreports hrs)
    generalize Session.resolve { s with nextId } program = analysed at hresolved hcomplaints ⊢
    generalize Session.resolve { s' with nextId := nextId' } program' = analysed'
      at hresolved hcomplaints ⊢
    obtain ⟨s₁, complaints⟩ := analysed
    obtain ⟨s₁', complaints'⟩ := analysed'
    dsimp only at hresolved hcomplaints ⊢
    cases hcomplaints with
    | nil => exact execute_twins hresolved fuel hprogram (hall .nil)
    | cons hc hcs => exact ⟨hresolved, hall (.cons hc hcs)⟩

/-! ### Sessions that are their own twins -/

/-- A store in which all numbers correspond to themselves. -/
theorem Housed.twin {V : Moment → Prop} {P : Nat → List Layer → String → Prop} {σ : Store}
    (h : Housed V P σ) (hρ : ρ.Keeps P) : σ.Twin ρ σ := by
  refine ⟨rfl, rfl, rfl, rfl, fun f => ?_, rfl, fun c => ⟨rfl, ?_⟩⟩
  · obtain ⟨Γ, hplaced, -⟩ := h.closure f
    exact ⟨FunctionDecl.Placed.twin hρ _ hplaced, rfl, rfl⟩
  · refine List.forall₂_same.mpr fun p hp => ⟨rfl, ?_, rfl, rfl⟩
    obtain ⟨Γ, hplaced, -⟩ := h.method_of_mem hp
    exact FunctionDecl.Placed.twin hρ _ hplaced

/-- **A session is a twin of itself** when the numbers it has given out correspond to themselves. -/
theorem Settled.twin {past : List Played} (h : Settled s past) (hline : ∀ l, ρ.line l l)
    (hold : ∀ i, i < s.nextId → ρ.id i i) {T' : Depths} (hT : s.machine.depths.Twin ρ T') :
    s.machine.Twin ρ { s.machine with depths := T' } := by
  have hkeeps : ρ.Keeps (Recorded past s.nextId s.machine.depths) :=
    ⟨hline, fun i _ _ hrecorded => hold i hrecorded.lt⟩
  exact ⟨Housed.twin h.housed hkeeps, rfl, hT, rfl⟩

end Session

end Roteiro
