import Roteiro.Proofs.Machine.Kept
import Roteiro.Proofs.Parser.Soundness
import Roteiro.Proofs.Scope.Placed
import Roteiro.Session

/-!
# The stages of a run

A source passes through tokens, tree and scopes before it is run. `Session.Accepts` says that
nothing is wrong with it up to there, and in which session it is then run. A source that something
is wrong with is never run; all it leaves behind are numbers that are used up and depths under these
numbers (`Session.Refused`).

* `run_of_accepts`: what a run of an accepted source does.
* `run_cases`: a source is accepted and run, or it is refused.
* `Accepts.occurs`, `Accepts.rightAt`: an accepted program is in its place, and the table has the
  depths of its occurrences.
-/

namespace Roteiro

open Scope

namespace Session

/-- `Accepts s source program s'`: nothing is wrong with the source, the program is its tree, and
`s'` is the session in which the program is run. -/
structure Accepts (s : Session) (source : String) (program : List Stmt) (s' : Session) : Prop where
  scanned : (Token.tokenize source).2 = []
  parsed : (Parser.parseProgram (Token.tokenize source).1 s.nextId).tree? = some program
  accepted : (Scope.resolve program s.machine.depths).accepted = true
  ready : s' =
    { machine := { s.machine with depths := (Scope.resolve program s.machine.depths).depths }
      nextId := (Parser.parseProgram (Token.tokenize source).1 s.nextId).nextId }

/-- The session `s'` has come from `s` without anything having been run. Numbers have been given
out, and only under these numbers depths may have been recorded. -/
structure Refused (s s' : Session) : Prop where
  store : s'.machine.store = s.machine.store
  current : s'.machine.current = s.machine.current
  host : s'.machine.host = s.machine.host
  nextId : s.nextId ≤ s'.nextId
  depths : ∀ id, s'.machine.depths[id]? = s.machine.depths[id]? ∨ s.nextId ≤ id ∧ id < s'.nextId

theorem Refused.refl (s : Session) : Refused s s :=
  ⟨rfl, rfl, rfl, Nat.le_refl _, fun _ => .inl rfl⟩

/-! ### Trees of a scan -/

/-- What occurs in a program has a number of it. -/
theorem mem_ids_of_occurs {program : List Stmt} {id : Nat} {Γ : List Layer} {name : String}
    (h : Occurs (fun id => aroundStmts id program []) id Γ name) : id ∈ idsOfStmts program := by
  refine Decidable.byContradiction fun hmem => ?_
  have hnone := aroundStmts_of_not_mem program [] hmem
  rw [h.around] at hnone
  cases hnone

section Trees

variable {tokens : List Token} {firstId : Nat} {program : List Stmt}
  (hnames : Grammar.NoSelf tokens)
  (h : (Parser.parseProgram tokens firstId).tree? = some program)

include hnames h

theorem tidy_of_tokens : tidyStmts program :=
  (Parser.parseProgram_builds h).1.tidy fun t ht => hnames t (List.takeWhile_subset _ ht)

/-- The table is only changed under the numbers of the program, which are new. -/
theorem records_of_tokens (depths : Depths) :
    Records (idsOfStmts program) (fun id => aroundStmts id program []) depths
      (Scope.resolve program depths).depths :=
  recordsStmts program (.start depths) (tidy_of_tokens hnames h)
    (Parser.parseProgram_builds h).2.nodup

/-- A program without complaints is in its place. -/
theorem occurs_of_tokens {depths : Depths}
    (haccepted : (Scope.resolve program depths).accepted = true) :
    placedStmts (Occurs fun id => aroundStmts id program []) program [] := by
  have htidy := tidy_of_tokens hnames h
  have hsilent : (resolveStmts program (.start depths)).reports = #[] := by
    unfold Analysis.accepted at haccepted
    exact Array.isEmpty_iff.mp haccepted
  exact placedStmts_of_silent program hsilent (.start _) htidy
    (Parser.parseProgram_builds h).2.nodup (fun s hs => held_global (tidy_of_mem htidy hs))
    ⟨fun _ _ => rfl, fun _ _ => nofun⟩

end Trees

/-! ### Runs -/

variable {s s' : Session} {source : String} {program : List Stmt} {d : Diagnostics}

theorem add_nil (d : Diagnostics) : d.add [] = d := by
  simp [Diagnostics.add]

theorem reports_diagnose (ending : Ending) (d : Diagnostics) :
    (Ending.diagnose ending d).reports = d.reports := by
  cases ending <;> rfl

/-- An accepted source is run. -/
theorem run_of_accepts (h : s.Accepts source program s') (hd : d.reports = []) (fuel : Nat) :
    s.run fuel source d =
      ((s'.execute fuel program).1, Ending.diagnose (s'.execute fuel program).2 d) := by
  have hreports := Parser.reports_of_tree h.parsed
  have hcomplaints : (Scope.resolve program s.machine.depths).reports.toList = [] := by
    simpa [Analysis.accepted] using h.accepted
  have hrejected : d.rejected = false := by simp [Diagnostics.rejected, hd]
  rw [h.ready]
  unfold Session.run
  simp only [h.scanned, add_nil, hrejected, hreports, h.parsed, Session.resolve, hcomplaints,
    Bool.false_eq_true, if_false, List.isEmpty_nil, if_true]

/-- **A source is accepted and run, or it is refused.** -/
theorem run_cases (s : Session) (fuel : Nat) (source : String) (d : Diagnostics) :
    (∃ program s', d.reports = [] ∧ s.Accepts source program s') ∨
      Refused s (s.run fuel source d).1 ∧ (s.run fuel source d).2.runtime? = d.runtime? := by
  by_cases hscan : (d.add (Token.tokenize source).2).rejected = true
  · -- nothing is done behind the tokens
    have hrun : s.run fuel source d = (s, d.add (Token.tokenize source).2) := if_pos hscan
    rw [hrun]
    exact .inr ⟨.refl s, rfl⟩
  · have hboth : d.reports ++ (Token.tokenize source).2 = [] := by
      simpa [Diagnostics.rejected, Diagnostics.add] using hscan
    obtain ⟨hd, hfaults⟩ := List.append_eq_nil_iff.mp hboth
    have hrejected : d.rejected = false := by simp [Diagnostics.rejected, hd]
    let parsed := Parser.parseProgram (Token.tokenize source).1 s.nextId
    have hnext : s.nextId ≤ parsed.nextId := Parser.le_nextId_parseProgram _ _
    cases htree : parsed.tree? with
    | none =>
      have hrun : s.run fuel source d =
          ({ s with nextId := parsed.nextId }, d.add parsed.reports) := by
        have htree' : (Parser.parseProgram (Token.tokenize source).1 s.nextId).tree? = none := htree
        unfold Session.run
        simp only [hfaults, add_nil, htree', hrejected, Bool.false_eq_true, if_false]
        rfl
      rw [hrun]
      exact .inr ⟨⟨rfl, rfl, rfl, hnext, fun _ => .inl rfl⟩, rfl⟩
    | some program =>
      by_cases haccepted : (Scope.resolve program s.machine.depths).accepted = true
      · exact .inl ⟨program, _, hd, hfaults, htree, haccepted, rfl⟩
      · have hcomplaints : (Scope.resolve program s.machine.depths).reports.toList ≠ [] := by
          simpa [Analysis.accepted] using haccepted
        have hrun : s.run fuel source d =
            ({ machine := { s.machine with
                  depths := (Scope.resolve program s.machine.depths).depths }
               nextId := parsed.nextId },
             d.add (Scope.resolve program s.machine.depths).reports.toList) := by
          have htree' : (Parser.parseProgram (Token.tokenize source).1 s.nextId).tree? =
            some program := htree
          unfold Session.run
          simp only [hfaults, add_nil, htree', Parser.reports_of_tree htree, hrejected,
            Bool.false_eq_true, if_false, Session.resolve, List.isEmpty_iff, hcomplaints]
          rfl
        rw [hrun]
        refine .inr ⟨⟨rfl, rfl, rfl, hnext, fun id => ?_⟩, rfl⟩
        by_cases hid : id ∈ idsOfStmts program
        · exact .inr ((Parser.parseProgram_builds htree).2.mem_iff id |>.mp hid)
        · exact .inl ((records_of_tokens (Token.noSelf_tokenize _) htree _).frame id hid)

/-- The machine behind a run is where the run ended. -/
theorem execute_machine (fuel : Nat) (s : Session) (program : List Stmt) :
    (s.execute fuel program).1 =
      { s with machine := Machine.final (Machine.execProgram fuel program) s.machine } := by
  unfold Session.execute Machine.final
  split <;> simp [*]

/-! ### Accepted programs -/

namespace Accepts

/-- The numbers of the program are new. -/
theorem numbered (h : s.Accepts source program s') :
    Numbered s.nextId s'.nextId (idsOfStmts program) := by
  rw [h.ready]
  exact (Parser.parseProgram_builds h.parsed).2

theorem records (h : s.Accepts source program s') :
    Records (idsOfStmts program) (fun id => aroundStmts id program []) s.machine.depths
      s'.machine.depths := by
  rw [h.ready]
  exact records_of_tokens (Token.noSelf_tokenize source) h.parsed _

/-- Depths that were recorded before stay. -/
theorem depths_of_lt (h : s.Accepts source program s') {id : Nat} (hid : id < s.nextId) :
    s'.machine.depths[id]? = s.machine.depths[id]? := by
  refine h.records.frame id fun hmem => ?_
  have hge := ((h.numbered.mem_iff id).mp hmem).1
  omega

/-- What is recorded for the program is what the source says. -/
theorem rightAt (h : s.Accepts source program s')
    (hfresh : ∀ id, s.nextId ≤ id → s.machine.depths[id]? = none) {id : Nat}
    (hid : id ∈ idsOfStmts program) :
    s'.machine.depths[id]? =
      (aroundStmts id program []).bind fun place => depthIn place.1 place.2 :=
  h.records.right (fun i hi => .inl (hfresh i ((h.numbered.mem_iff i).mp hi).1)) id hid

/-- The program is in its place. -/
theorem occurs (h : s.Accepts source program s') :
    placedStmts (Occurs fun id => aroundStmts id program []) program [] :=
  occurs_of_tokens (Token.noSelf_tokenize source) h.parsed h.accepted

end Accepts

end Session

end Roteiro
