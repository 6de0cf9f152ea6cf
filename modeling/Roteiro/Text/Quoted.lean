import Roteiro.Text.Combining
import Roteiro.Text.Invisible

/-!
# Quoted texts

A quoted text stands between double quotes, and the characters that could not be told apart
there are escaped. There are two dialects, each a choice of what is escaped and how:

* **names**, as they are shown to a person: short escapes for quote, backslash and the usual
  controls, and a code point in braces for what has no picture of its own;
* **JSON**, where only the quote, the backslash and the controls are escaped.
-/

namespace Roteiro

namespace Text

/-- The lower-case hexadecimal digits of `n`. -/
def hexDigits (n : Nat) : List Char := Nat.toDigits 16 n

/-- The text between double quotes, each character written by `escape`. -/
def quoteWith (escape : Char → List Char) (s : String) : String :=
  String.ofList ('"' :: s.toList.flatMap escape ++ ['"'])

/-- A character that leaves no mark of its own on the page. -/
def isUnprintable (c : Char) : Bool := isInvisible c || isCombining c

/-- How a character of a name is shown between quotes. -/
def escapeName (c : Char) : List Char :=
  if c = '"' then ['\\', '"']
  else if c = '\\' then ['\\', '\\']
  else if c = '\n' then ['\\', 'n']
  else if c = '\r' then ['\\', 'r']
  else if c = '\t' then ['\\', 't']
  else if c.toNat = 0 then ['\\', '0']
  else if isUnprintable c then ['\\', 'u', '\x7b'] ++ hexDigits c.toNat ++ ['\x7d']
  else [c]

/-- How a character of a JSON string is written. -/
def escapeJson (c : Char) : List Char :=
  if c = '"' then ['\\', '"']
  else if c = '\\' then ['\\', '\\']
  else if c = '\n' then ['\\', 'n']
  else if c = '\r' then ['\\', 'r']
  else if c = '\t' then ['\\', 't']
  else if c.toNat = 0x8 then ['\\', 'b']
  else if c.toNat = 0xC then ['\\', 'f']
  else if c.toNat < 0x10 then ['\\', 'u', '0', '0', '0'] ++ hexDigits c.toNat
  else if c.toNat < 0x20 then ['\\', 'u', '0', '0'] ++ hexDigits c.toNat
  else [c]

/-- A name between quotes, as shown to a person. -/
def quoteName (s : String) : String := quoteWith escapeName s

/-- A JSON string. -/
def quoteJson (s : String) : String := quoteWith escapeJson s

end Text

end Roteiro
