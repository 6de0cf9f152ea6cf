import Roteiro.CommandLine.Usage

/-!
# Arguments that make no sense

A `Complaint` says what is wrong with the arguments, gives a hint where there is one, and recalls
how the program is used.
-/

namespace Roteiro

namespace CommandLine

/-- Advice on an argument that is not understood. -/
inductive Hint where
  /-- It is understood as a word behind `--`. -/
  | asWord (argument : String)
  /-- An option resembles it. -/
  | similar (flag : Flag)
  /-- It is an option of a verb. -/
  | under (v : Verb) (flag : Flag)
  deriving DecidableEq, Repr

/-- The text of a hint. -/
def Hint.text : Hint → String
  | .asWord argument => s!"to pass '{argument}' as a value, use '-- {argument}'"
  | .similar flag =>
    let shown := "--" ++ flag.word
    s!"a similar argument exists: '{shown}'"
  | .under v flag =>
    let shown := v.word ++ " --" ++ flag.word
    s!"'{shown}' exists"

/-- What can be wrong with the arguments. -/
inductive Misuse where
  | unexpected (argument : String) (hint? : Option Hint)
  | repeated (flag : Flag)
  /-- Nothing, or an empty text, where a value is shown as `wanted`. -/
  | noValue (wanted : String)
  | unwantedValue (flag : Flag) (value : String)
  | noFile (wanted : String)
  | unknownVerb (word : String)
  deriving DecidableEq, Repr

namespace Misuse

/-- What is wrong. -/
def message : Misuse → String
  | .unexpected argument _ => s!"unexpected argument '{argument}' found"
  | .repeated flag => s!"the argument '{flag.shown}' cannot be used multiple times"
  | .noValue wanted => s!"a value is required for '{wanted}' but none was supplied"
  | .unwantedValue flag value =>
    s!"unexpected value '{value}' for '{flag.shown}' found; no more were expected"
  | .noFile wanted => s!"the following required arguments were not provided:\n  {wanted}"
  | .unknownVerb word => s!"unrecognized subcommand '{word}'"

/-- The hint that goes with it. -/
def hint? : Misuse → Option Hint
  | .unexpected _ hint? => hint?
  | _ => none

end Misuse

/-- A complaint about the arguments, and the calls that it recalls. -/
structure Complaint where
  topic : Topic
  misuse : Misuse
  usage : List String
  deriving DecidableEq, Repr

/-- The text of a complaint. -/
def Complaint.text (c : Complaint) : String :=
  let hint := (c.misuse.hint?.map fun hint => ["  tip: " ++ hint.text]).toList
  let usage := if c.usage.isEmpty then [] else [Topic.usageBlock c.usage]
  let help := if c.topic.flags.contains .help then [["For more information, try '--help'."]] else []
  "\n".intercalate (([["error: " ++ c.misuse.message]] ++ hint ++ usage ++ help).map lines)

end CommandLine

end Roteiro
