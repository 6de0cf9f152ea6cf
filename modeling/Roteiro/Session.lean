import Roteiro.Machine.Eval
import Roteiro.Parser.Program
import Roteiro.Scope.Resolve
import Roteiro.Token.Scan

/-!
# Sessions

A session runs one source after another on the same machine: globals, closures and recorded depths
stay, and no number of a name occurrence is given out twice. A source passes through four stages
(tokens, tree, scopes, run). A complaint of one stage keeps the source from the later ones, so a
program that breaks a static rule is never run.

Complaints are collected by the caller, who may clear them between runs. As long as one is held,
every further source stops after its tokens.
-/

namespace Roteiro

/-- What is known to be wrong. -/
structure Diagnostics where
  /-- Complaints about sources, in order. -/
  reports : List Report
  /-- What stopped the latest run that was stopped. -/
  runtime? : Option RuntimeError

namespace Diagnostics

/-- Nothing is wrong. -/
def none : Diagnostics := ⟨[], Option.none⟩

/-- With further complaints. -/
def add (d : Diagnostics) (reports : List Report) : Diagnostics :=
  { d with reports := d.reports ++ reports }

/-- Whether there are complaints about a source. -/
def rejected (d : Diagnostics) : Bool := !d.reports.isEmpty

/-- The texts of everything that is wrong, complaints first. -/
def texts (d : Diagnostics) : List String :=
  d.reports.map Report.text ++ (d.runtime?.map RuntimeError.text).toList

end Diagnostics

/-- How running some statements ended. -/
inductive Ending where
  | finished
  | failed (error : RuntimeError)
  | outOfFuel
  deriving DecidableEq, Repr

/-- A machine that keeps running sources. -/
structure Session where
  machine : Machine
  /-- The first number that no name occurrence has had yet. -/
  nextId : Nat

namespace Session

/-- A new session. -/
def start (host : Host) : Session := ⟨.initial host, 0⟩

/-- What has been written so far. -/
def output (s : Session) : String := s.machine.host.output

/-- The session after something has happened to its host. -/
def withHost (s : Session) (host : Host) : Session :=
  { s with machine := { s.machine with host } }

/-- More fuel than a run can use up in practice. -/
def ampleFuel : Nat := Nat.pow 10 12

/-- The complaints about the scopes of some statements. The depths of their name occurrences are
recorded in any case. -/
def resolve (s : Session) (program : List Stmt) : Session × List Report :=
  let analysis := Scope.resolve program s.machine.depths
  ({ s with machine := { s.machine with depths := analysis.depths } }, analysis.reports.toList)

/-- Runs some statements. -/
def execute (fuel : Nat) (s : Session) (program : List Stmt) : Session × Ending :=
  match Machine.execProgram fuel program s.machine with
  | .ok _ machine => ({ s with machine }, .finished)
  | .error (.failed e) machine => ({ s with machine }, .failed e)
  | .error .outOfFuel machine => ({ s with machine }, .outOfFuel)

/-- What is wrong after some statements have been run. -/
def Ending.diagnose : Ending → Diagnostics → Diagnostics
  | .failed e, d => { d with runtime? := some e }
  | .finished, d => d
  | .outOfFuel, d => d

/-- Runs a source, unless there is a complaint about it or held from before. -/
def run (fuel : Nat) (s : Session) (source : String) (d : Diagnostics) : Session × Diagnostics :=
  let (tokens, faults) := Token.tokenize source
  let d := d.add faults
  if d.rejected then (s, d)
  else
    let parsed := Parser.parseProgram tokens s.nextId
    let s := { s with nextId := parsed.nextId }
    let d := d.add parsed.reports
    match parsed.tree? with
    | none => (s, d)
    | some program =>
      let (s, complaints) := s.resolve program
      let d := d.add complaints
      if complaints.isEmpty then
        let (s, ending) := s.execute fuel program
        (s, Ending.diagnose ending d)
      else (s, d)

end Session

end Roteiro
