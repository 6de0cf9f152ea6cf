/-!
# Files

What the command line needs of a file system is a `World`: what is found under a name, and whether
a file of some name can be created.
-/

namespace Roteiro

namespace CommandLine

/-- Why a file cannot be opened or created. -/
inductive Refusal where
  | noSuchFile
  | notDirectory
  | isDirectory
  | nameTooLong
  | notPermitted
  deriving DecidableEq, Repr

/-- The text of a refusal. -/
def Refusal.message : Refusal → String
  | .noSuchFile => "No such file or directory (os error 2)"
  | .notDirectory => "Not a directory (os error 20)"
  | .isDirectory => "Is a directory (os error 21)"
  | .nameTooLong => "File name too long (os error 36)"
  | .notPermitted => "Permission denied (os error 13)"

/-- What is found under a name. -/
inductive FileContent where
  | refused (r : Refusal)
  | directory
  | bytes (content : List UInt8)
  deriving DecidableEq, Repr

/-- The surroundings of a command. -/
structure World where
  file : String → FileContent
  /-- Why a file of this name cannot be created, if it cannot. -/
  createRefusal? : String → Option Refusal
  input : List UInt8

end CommandLine

end Roteiro
