import Roteiro.CommandLine
import Std.Time.DateTime.Timestamp

/-!
# The program

Reads the arguments, the file they name and standard input, performs the task, and writes what it
wrote.
-/

namespace Roteiro

/-- Why a file could not be opened, read or created. -/
def refusal : IO.Error → CommandLine.Refusal
  | .inappropriateType _ code _ => if code = 21 then .isDirectory else .notDirectory
  | .invalidArgument .. => .nameTooLong
  | .permissionDenied .. => .notPermitted
  | _ => .noSuchFile

/-- What is found under a file name. A folder can be opened, but not read. -/
def readContent (name : String) : IO CommandLine.FileContent := do
  try
    let content ← IO.FS.readBinFile name
    return .bytes content.toList
  catch error =>
    match refusal error with
    | .isDirectory => return .directory
    | refused => return .refused refused

/-- The file that a request is about. -/
def requestedFile? : CommandLine.Request → Option String
  | .task ⟨.run name, _⟩ => some name
  | .task ⟨.tokenize name _, _⟩ => some name
  | .task ⟨.parse name, _⟩ => some name
  | _ => none

/-- Creates an empty file, or says why that was not possible. -/
def createFile (name : String) : IO (Option CommandLine.Refusal) := do
  try
    IO.FS.writeFile name ""
    return none
  catch error =>
    return some (refusal error)

/-- The log file that a request asks for. -/
def requestedLog? : CommandLine.Request → Option String
  | .task t => t.log?
  | _ => none

/-- How often a program reads the clock within a second. -/
def readingsPerSecond : Nat := 1000000

/-- A clock that is right at the start. From there it goes by how often it has been read, since a
run does not look at the time itself. -/
def makeClock : IO (Supply Int) := do
  let now ← Std.Time.Timestamp.now
  let start := now.toSecondsSinceUnixEpoch.val
  return ⟨fun readings => start + Int.ofNat (readings / readingsPerSecond), 0⟩

/-- Stirs the bits of a number. -/
def stir (x : UInt64) : UInt64 :=
  let x := (x ^^^ (x >>> 30)) * 0xbf58476d1ce4e5b9
  let x := (x ^^^ (x >>> 27)) * 0x94d049bb133111eb
  x ^^^ (x >>> 31)

/-- Draws that follow from a random start, each of 128 bits. -/
def makeDraws : IO (Supply Nat) := do
  let start ← IO.rand 0 (Nat.pow 2 64 - 1)
  let word (i : Nat) : Nat := (stir (UInt64.ofNat (start + 0x9e3779b97f4a7c15 * i))).toNat
  return ⟨fun i => word (2 * i) * Nat.pow 2 64 + word (2 * i + 1), 0⟩

/-- Everything on standard input. -/
def readInput : IO (List UInt8) := do
  let bytes ← (← IO.getStdin).readBinToEnd
  return bytes.toList

end Roteiro

open Roteiro in
/-- Performs what the arguments ask for. -/
def main (arguments : List String) : IO UInt32 := do
  let request := CommandLine.request arguments
  let refusal? ← match requestedLog? request with
    | some log => createFile log
    | none => pure none
  let content ← match requestedFile? request with
    | some name => readContent name
    | none => pure (.refused .noSuchFile)
  let input ← match request with
    | .task ⟨.run _, _⟩ => readInput
    | .task ⟨.interact, _⟩ => readInput
    | _ => pure []
  let host : Host := ⟨input, "", ← makeClock, ← makeDraws⟩
  let outcome := CommandLine.perform ⟨fun _ => content, fun _ => refusal?, input⟩ host request
  IO.print outcome.stdout
  IO.eprint outcome.stderr
  return UInt32.ofNat outcome.code
