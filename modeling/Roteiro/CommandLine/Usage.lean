/-!
# How the program is used

The program can be asked for a few things, each by a word of its own (`Verb`), and the request can
be refined by options (`Flag`). This module holds their texts: for every `Topic`, the lines that
recall how it is used, and a page of help.
-/

namespace Roteiro

namespace CommandLine

/-- Lines of text. -/
def lines (texts : List String) : String := String.join (texts.map (· ++ "\n"))

/-- The name under which the program is called. -/
def programName : String := "phortugol"

/-- The name and the version of the program. -/
def versionLine : String := "phortugol 0.1.0"

/-- The words that select what is done. -/
inductive Verb where
  | run
  | repl
  | tokenize
  | parse
  deriving DecidableEq, Repr

namespace Verb

/-- All of them, in the order of the help page. -/
def all : List Verb := [.run, .repl, .tokenize, .parse]

/-- The word itself. -/
def word : Verb → String
  | .run => "run"
  | .repl => "repl"
  | .tokenize => "tokenize"
  | .parse => "parse"

/-- What it asks for. -/
def summary : Verb → String
  | .run => "Runs a Phortugol program"
  | .repl => "Starts an interactive prompt"
  | .tokenize => "Tokenizes input from a file, printing each token"
  | .parse => "Parses input from a file and prints each statement's tree"

/-- The verb with the given word. -/
def ofWord? (word : String) : Option Verb := all.find? (·.word = word)

theorem ofWord?_word (v : Verb) : ofWord? v.word = some v := by cases v <;> decide

end Verb

/-- The options. -/
inductive Flag where
  | json
  | log
  | logFile
  | help
  | version
  deriving DecidableEq, Repr

namespace Flag

/-- The word behind the two dashes. -/
def word : Flag → String
  | .json => "json"
  | .log => "log"
  | .logFile => "log-file"
  | .help => "help"
  | .version => "version"

/-- The letter that can stand for the word, behind one dash. -/
def letter? : Flag → Option Char
  | .help => some 'h'
  | .version => some 'V'
  | _ => none

/-- The option as it is shown, with its value. -/
def shown : Flag → String
  | .logFile => "--log-file <PATH>"
  | flag => "--" ++ flag.word

/-- What it does. -/
def summary : Flag → String
  | .json => "Print the tokens as a JSON array"
  | .log => "Enable logging to a file"
  | .logFile => "Where `--log` writes [default: app.log]"
  | .help => "Print help"
  | .version => "Print version"

end Flag

/-- What help can be about. -/
inductive Topic where
  | program
  | verb (v : Verb)
  | help
  deriving DecidableEq, Repr

namespace Topic

/-- The words of a call up to the first option. -/
def name : Topic → String
  | .program => programName
  | .verb v => programName ++ " " ++ v.word
  | .help => programName ++ " help"

/-- What it is for. -/
def summary : Topic → String
  | .program => "Phortugol language interpreter"
  | .verb v => v.summary
  | .help => "Print this message or the help of the given subcommand(s)"

/-- The options that are understood. -/
def flags : Topic → List Flag
  | .program => [.log, .logFile, .help, .version]
  | .verb .tokenize => [.json, .log, .logFile, .help]
  | .verb _ => [.log, .logFile, .help]
  | .help => []

/-- The words that are understood beside options, as they are shown, and what they are. -/
def argument? : Topic → Option (String × String)
  | .program => some ("[FILE]", "Script to run; starts the REPL when omitted")
  | .verb .repl => none
  | .verb _ => some ("<FILENAME>", "")
  | .help => some ("[COMMAND]...", "Print help for the subcommand(s)")

/-- How a call looks. -/
def usage (t : Topic) : List String :=
  let options := if t.flags.isEmpty then "" else " [OPTIONS]"
  let argument := (t.argument?.map fun (shown, _) => " " ++ shown).getD ""
  let calls := [t.name ++ options ++ argument]
  if t = .program then calls ++ [t.name ++ " <COMMAND>"] else calls

/-- How a call looks in which some options, and perhaps a file, have been given. -/
def usageWith (t : Topic) (given : List Flag) (file : Bool) : List String :=
  if given.isEmpty && !file then t.usage
  else
    let argument :=
      match t with
      | .program => if file then " <FILE>" else " [FILE]"
      | _ => (t.argument?.map fun (shown, _) => " " ++ shown).getD ""
    [t.name ++ String.join (given.map fun flag => " " ++ flag.shown) ++ argument]

/-! ### Pages of help -/

/-- Rows of two columns, the second one aligned. -/
def table (rows : List (String × String)) : List String :=
  let width := (rows.map fun (left, _) => left.length).foldl max 0
  rows.map fun (left, right) => "  " ++ left.pushn ' ' (width - left.length) ++ "  " ++ right

/-- A table under a heading; nothing if it has no rows. -/
def titled (heading : String) (rows : List (String × String)) : List (List String) :=
  if rows.isEmpty then [] else [heading :: table rows]

/-- The rows on the words that select what is done. -/
def verbRows : Topic → List (String × String)
  | .program => Verb.all.map (fun v => (v.word, v.summary)) ++ [("help", Topic.help.summary)]
  | _ => []

/-- The rows on options. -/
def flagRows (t : Topic) : List (String × String) :=
  t.flags.map fun flag =>
    let short := (flag.letter?.map fun letter => String.ofList ['-', letter, ',', ' ']).getD "    "
    (short ++ flag.shown, flag.summary)

/-- The lines that recall how a call looks. -/
def usageBlock (calls : List String) : List String :=
  match calls with
  | [] => []
  | first :: others => ("Usage: " ++ first) :: others.map ("       " ++ ·)

/-- The page of help on a topic: blocks of lines with an empty line between them. -/
def page (t : Topic) : String :=
  let blocks := [[t.summary], usageBlock t.usage] ++ titled "Commands:" t.verbRows ++
    titled "Arguments:" t.argument?.toList ++ titled "Options:" t.flagRows
  "\n".intercalate (blocks.map lines)

end Topic

end CommandLine

end Roteiro
