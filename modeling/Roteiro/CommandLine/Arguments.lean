import Roteiro.CommandLine.Misuse
import Roteiro.Text.Resemblance

/-!
# Reading the arguments

The arguments ask for one of four things: to run a file, to read and run standard input line by
line, to list the tokens of a file, or to print its trees; or they ask for the version or for help.
`CommandLine.request` reads them from left to right.

* A word selects what is done only if nothing stands before it; otherwise it is a file.
* Behind `--` every argument is a word.
* The value of an option is the next argument, or stands behind `=`.
* A fault in a value is noticed when the next option or file is understood, or at the end.
-/

namespace Roteiro

namespace CommandLine

/-- What can be asked for. -/
inductive Command where
  | run (file : String)
  | interact
  | tokenize (file : String) (json : Bool)
  | parse (file : String)
  deriving DecidableEq, Repr

/-- A command, and the log file to create, if any. -/
structure Task where
  command : Command
  log? : Option String
  deriving DecidableEq, Repr

/-- What the arguments mean. -/
inductive Request where
  | task (t : Task)
  | version
  | help (t : Topic)
  | misuse (c : Complaint)
  deriving DecidableEq, Repr

/-- What has been read of the arguments. -/
structure Reading where
  topic : Topic
  /-- The options so far, in the order of their first use. -/
  flags : List Flag
  file? : Option String
  logFile? : Option String
  /-- What is wrong with the last value. -/
  fault? : Option Misuse
  /-- Whether the next word is the value of an option. -/
  awaiting : Bool
  /-- Whether anything at all was understood. -/
  touched : Bool
  /-- Whether `--` was read. -/
  wordsOnly : Bool

/-- One argument leads to a further reading, or settles what the arguments mean. -/
inductive Step where
  | next (r : Reading)
  | answer (q : Request)

namespace Reading

/-- Nothing has been read. -/
def start : Reading := ⟨.program, [], none, none, none, false, false, false⟩

/-- A complaint that recalls the calls of the topic. -/
def complain (r : Reading) (m : Misuse) : Request := .misuse ⟨r.topic, m, r.topic.usage⟩

/-- A complaint that recalls the calls in which the given options stand. -/
def complainWith (r : Reading) (given : List Flag) (m : Misuse) : Request :=
  .misuse ⟨r.topic, m, r.topic.usageWith given.eraseDups r.file?.isSome⟩

/-- A complaint about a value. -/
def complainOfValue (r : Reading) (m : Misuse) : Request :=
  match m with
  | .noValue _ => .misuse ⟨r.topic, m, []⟩
  | _ => r.complain m

/-- Goes on, unless the last value has a fault. -/
def unlessFaulty (r : Reading) (s : Step) : Step :=
  match r.fault? with
  | some m => .answer (r.complainOfValue m)
  | none => s

/-- Takes note of an option. -/
def addFlag (r : Reading) (flag : Flag) : Reading :=
  { r with flags := r.flags ++ [flag], touched := true }

/-- What is wrong with a value for the log file. -/
def logFileFault? (r : Reading) (path : String) : Option Misuse :=
  if r.logFile?.isSome then some (.repeated .logFile)
  else if path.isEmpty then some (.noValue Flag.logFile.shown)
  else none

/-- Takes a value for the log file. -/
def setLogFile (r : Reading) (path : String) : Reading :=
  let fault? := r.logFileFault? path
  if fault?.isSome then { r with fault?, awaiting := false }
  else { r.addFlag .logFile with logFile? := some path, fault?, awaiting := false }

/-- Takes a file. -/
def takeFile (r : Reading) (file : String) : Step :=
  match r.topic.argument?, r.file? with
  | some (shown, _), none =>
    let fault? := if file.isEmpty then some (.noValue shown) else none
    r.unlessFaulty (.next { r with file? := some file, fault?, touched := true })
  | _, _ => .answer (r.complain (.unexpected file none))

/-- The page of help that is asked for by the words behind `help`. -/
def helpOn (t : Topic) : List String → Request
  | [] => .help t
  | word :: words =>
    match t, word, Verb.ofWord? word with
    | .program, "help", _ => helpOn .help words
    | .program, _, some v => helpOn (.verb v) words
    | _, _, _ => .misuse ⟨t, .unknownVerb word, t.usage⟩

/-- Takes a word that is no option. -/
def takeWord (r : Reading) (word : String) (rest : List String) : Step :=
  if r.awaiting then .next (r.setLogFile word)
  else if r.touched || r.topic ≠ .program then r.takeFile word
  else if word = "help" then .answer (helpOn .program rest)
  else
    match Verb.ofWord? word with
    | some v => .next { r with topic := .verb v }
    | none => r.takeFile word

/-- The flag of a topic that resembles a word. -/
def similarFlag? (t : Topic) (word : String) : Option Flag :=
  (Text.mostAlike? word (t.flags.map Flag.word)).bind fun alike =>
    t.flags.find? (·.word = alike)

/-- A verb among the words to come with an option that resembles the given word. -/
def hintFromVerbs? (word : String) (rest : List String) : Option Hint :=
  (rest.filterMap Verb.ofWord?).findSome? fun v =>
    (similarFlag? (.verb v) word).map (Hint.under v)

/-- Advice on an option that is not understood. -/
def hintFor? (r : Reading) (word : String) (rest : List String) : Option Hint :=
  match similarFlag? r.topic word with
  | some flag => some (.similar flag)
  | none =>
    match if r.topic = .program then hintFromVerbs? word rest else none with
    | some hint => some hint
    | none => if r.topic.argument?.isSome then some (.asWord ("--" ++ word)) else none

/-- Complains about an option that is not understood. -/
def unknownOption (r : Reading) (word : String) (rest : List String) : Request :=
  let hint? := r.hintFor? word rest
  let given :=
    match hint? with
    | some (.similar flag) => r.flags ++ [flag]
    | _ => r.flags
  r.complainWith given (.unexpected ("--" ++ word) hint?)

/-- Takes an option without a value. -/
def takeFlag (r : Reading) : Flag → Step
  | .help => r.unlessFaulty (.answer (.help r.topic))
  | .version => r.unlessFaulty (.answer .version)
  | .logFile =>
    let fault? := some (.noValue Flag.logFile.shown)
    r.unlessFaulty (.next { r with fault?, awaiting := true, touched := true })
  | flag =>
    r.unlessFaulty
      (if r.flags.contains flag then .answer (r.complain (.repeated flag))
      else .next (r.addFlag flag))

/-- Takes an option with a value behind `=`. -/
def takeFlagWith (r : Reading) (value : String) : Flag → Step
  | .logFile =>
    r.unlessFaulty
      (match r.logFileFault? value with
      | some m => .answer (r.complainOfValue m)
      | none => .next (r.setLogFile value))
  | flag => .answer (r.complainWith (r.flags ++ [flag]) (.unwantedValue flag value))

/-- Takes an option that is given by its word. -/
def takeLong (r : Reading) (option : List Char) (rest : List String) : Step :=
  let word := String.ofList (option.takeWhile (· ≠ '='))
  match r.topic.flags.find? (·.word = word), option.dropWhile (· ≠ '=') with
  | none, _ => .answer (r.unknownOption word rest)
  | some flag, [] => r.takeFlag flag
  | some flag, _ :: value => r.takeFlagWith (String.ofList value) flag

/-- Takes options that are given by their letters. The first letter settles all. -/
def takeShort (r : Reading) (letter : Char) : Step :=
  match r.topic.flags.find? (·.letter? = some letter) with
  | some flag => r.takeFlag flag
  | none =>
    let argument := String.ofList ['-', letter]
    let hint? := if r.topic.argument?.isSome then some (.asWord argument) else none
    .answer (r.complain (.unexpected argument hint?))

/-- Takes one argument, in front of the others. -/
def step (r : Reading) (argument : String) (rest : List String) : Step :=
  if r.wordsOnly then r.takeFile argument
  else
    match argument.toList with
    | ['-', '-'] => .next { r with wordsOnly := true, awaiting := false }
    | '-' :: '-' :: option => r.takeLong option rest
    | '-' :: letter :: _ => r.takeShort letter
    | _ => r.takeWord argument rest

/-- The command of a complete reading. -/
def command? (r : Reading) : Option Command :=
  match r.topic, r.file? with
  | .program, none => some .interact
  | .program, some file => some (.run file)
  | .verb .run, some file => some (.run file)
  | .verb .repl, _ => some .interact
  | .verb .tokenize, some file => some (.tokenize file (r.flags.contains .json))
  | .verb .parse, some file => some (.parse file)
  | _, _ => none

/-- What the arguments mean when all of them are read. -/
def finish (r : Reading) : Request :=
  match r.fault?, r.command? with
  | some m, _ => r.complainOfValue m
  | none, some command =>
    .task ⟨command, if r.flags.contains .log then some (r.logFile?.getD "app.log") else none⟩
  | none, none =>
    let wanted := (r.topic.argument?.map (·.1)).getD ""
    .misuse ⟨r.topic, .noFile wanted, r.topic.usageWith r.flags true⟩

/-- Reads the arguments that are left. -/
def readAll (r : Reading) : List String → Request
  | [] => r.finish
  | argument :: rest =>
    match r.step argument rest with
    | .next r => readAll r rest
    | .answer q => q

end Reading

/-- What the arguments mean. -/
def request (arguments : List String) : Request := Reading.start.readAll arguments

/-- Without arguments, standard input is read and run. -/
theorem request_nil : request [] = .task ⟨.interact, none⟩ := rfl

end CommandLine

end Roteiro
