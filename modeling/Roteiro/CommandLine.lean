import Roteiro.CommandLine.Arguments
import Roteiro.CommandLine.World
import Roteiro.Session
import Roteiro.Token.Json
import Roteiro.Tree.Printer

/-!
# The command line

The arguments ask for a task (`CommandLine.request`), and `CommandLine.perform` says, for given
files and input, what is written where and with which code the program ends.

The code is 0 if all is well, 65 after complaints about a source, 70 after a run was stopped, 1 if
something could not be read, and 2 if the arguments make no sense.
-/

namespace Roteiro

namespace CommandLine

/-- What a command has done when it ends. -/
structure Outcome where
  code : Nat
  stdout : String
  stderr : String
  /-- The log file that was created. -/
  created? : Option String

/-- Nothing done, and all is well. -/
def Outcome.quiet : Outcome := ⟨0, "", "", none⟩

/-- An error that ends the command, and its cause. -/
def trouble (context cause : String) : String :=
  s!"Error: {context}\n\nCaused by:\n    {cause}\n"

/-- The text of a file, or the error that ends the command. -/
def readText (w : World) (name : String) : Except String String :=
  let quoted := Text.quoteName name
  match w.file name with
  | .refused r => .error (trouble s!"Failed to open file {quoted}" r.message)
  | .directory => .error (trouble s!"Failed to read file {quoted}" Refusal.isDirectory.message)
  | .bytes content =>
    match Text.Utf8.decode content with
    | .ok source => .ok source
    | .error fault => .error (trouble s!"File {quoted} is not valid UTF-8" fault.message)

/-- The code after a run. -/
def exitCode (d : Diagnostics) : Nat :=
  if d.rejected then 65 else if d.runtime?.isSome then 70 else 0

/-- Runs a source. -/
def runSource (host : Host) (source : String) : Outcome :=
  let (s, d) := (Session.start host).run Session.ampleFuel source .none
  ⟨exitCode d, s.output, lines d.texts, none⟩

/-- Lists the tokens of a source, and the complaints about it. -/
def tokenizeSource (json : Bool) (source : String) : Outcome :=
  let (tokens, faults) := Token.tokenize source
  let listing := if json then [Token.jsonList tokens] else tokens.map Token.text
  ⟨if faults.isEmpty then 0 else 65, lines listing, lines (faults.map Report.text), none⟩

/-- Prints the trees of a source, or the complaints about it. -/
def parseSource (source : String) : Outcome :=
  let (tokens, faults) := Token.tokenize source
  if !faults.isEmpty then ⟨65, "", lines (faults.map Report.text), none⟩
  else
    let parsed := Parser.parseProgram tokens 0
    match parsed.tree? with
    | some program => ⟨0, lines (Stmt.texts program), "", none⟩
    | none => ⟨65, "", lines (parsed.reports.map Report.text), none⟩

/-- Writes a text as the program itself would. -/
def say (s : Session) (text : String) : Session :=
  s.withHost { s.machine.host with output := s.output ++ text }

/-- Reads and runs one line after the other, at most `limit` of them, behind the error texts
`errors`. Complaints about a line are forgotten before the next one. -/
def interact : Nat → Session → String → Outcome
  | 0, s, errors => ⟨0, s.output, errors, none⟩
  | limit + 1, s, errors =>
    let s := say s "> "
    let (line, rest) := Text.Utf8.splitLine s.machine.host.input
    let s := s.withHost { s.machine.host with input := rest }
    if line.isEmpty then ⟨0, (say s "\n").output, errors, none⟩
    else
      match Text.Utf8.decode line with
      | .error _ =>
        let error := trouble "Failed to read from stdin" "stream did not contain valid UTF-8"
        ⟨1, s.output, errors ++ error, none⟩
      | .ok source =>
        let (s, d) := s.run Session.ampleFuel source .none
        interact limit s (errors ++ lines d.texts)

/-- Does something with the text of a file. -/
def withText (w : World) (name : String) (use : String → Outcome) : Outcome :=
  match readText w name with
  | .ok source => use source
  | .error text => ⟨1, "", text, none⟩

/-- Performs a command. -/
def performCommand (w : World) (host : Host) : Command → Outcome
  | .run name => withText w name (runSource host)
  | .interact => interact (w.input.length + 1) (.start host) ""
  | .tokenize name json => withText w name (tokenizeSource json)
  | .parse name => withText w name parseSource

/-- Performs what the arguments ask for. -/
def perform (w : World) (host : Host) : Request → Outcome
  | .version => { Outcome.quiet with stdout := lines [versionLine] }
  | .help t => { Outcome.quiet with stdout := t.page }
  | .misuse c => { Outcome.quiet with code := 2, stderr := c.text }
  | .task ⟨command, none⟩ => performCommand w host command
  | .task ⟨command, some log⟩ =>
    match w.createRefusal? log with
    | none => { performCommand w host command with created? := some log }
    | some r =>
      let error := trouble s!"Failed to create {Text.quoteName log}" r.message
      { Outcome.quiet with code := 1, stderr := error }

end CommandLine

end Roteiro
