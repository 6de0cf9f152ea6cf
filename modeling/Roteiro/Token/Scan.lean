import Roteiro.Report.Basic
import Roteiro.Decimal.Reader
import Roteiro.Text.Letter

/-!
# From characters to tokens

The source is cut into chunks from left to right. A chunk is skipped (a blank, a comment), or it
is a token, or it is wrong (a character that starts nothing, a text without its closing quote);
each takes at least one character, as many as fit. `chunk` cuts off one of them, and `scan` goes
on to the end, counts the lines and puts one end marker behind the last token.

* `chunk_append`: cutting off a chunk loses nothing.
* `length_chunk_rest_le`: each chunk takes its first character, which is why scanning ends.
-/

namespace Roteiro

namespace Token

/-- What a chunk of the source is. -/
inductive Reading where
  | skip
  | token (kind : Kind)
  | fault (cause : Cause)

/-- A chunk at the front of the source: what it is, the characters it takes after its first, and
the characters that follow it. -/
structure Chunk where
  reading : Reading
  front : List Char
  rest : List Char

/-- A symbol of one character. -/
def single (kind : Kind) (cs : List Char) : Chunk := ⟨.token kind, [], cs⟩

/-- A symbol that is longer if `next` follows. -/
def double (next : Char) (long short : Kind) (cs : List Char) : Chunk :=
  match cs with
  | d :: ds => if d = next then ⟨.token long, [d], ds⟩ else ⟨.token short, [], cs⟩
  | [] => ⟨.token short, [], []⟩

/-- `==`, `=>` or `=`. -/
def equalSign (cs : List Char) : Chunk :=
  match cs with
  | '=' :: ds => ⟨.token .equalEqual, ['='], ds⟩
  | '>' :: ds => ⟨.token .arrow, ['>'], ds⟩
  | _ => ⟨.token .equal, [], cs⟩

/-- A symbol that exists only doubled. -/
def doubled (kind : Kind) (c : Char) (cs : List Char) : Chunk :=
  match cs with
  | d :: ds =>
    if d = c then ⟨.token kind, [d], ds⟩ else ⟨.fault (.unexpectedCharacter c), [], cs⟩
  | [] => ⟨.fault (.unexpectedCharacter c), [], []⟩

/-- A slash, or a comment up to the end of its line. -/
def slash (cs : List Char) : Chunk :=
  match cs with
  | '/' :: _ => ⟨.skip, cs.takeWhile (· ≠ '\n'), cs.dropWhile (· ≠ '\n')⟩
  | _ => ⟨.token .slash, [], cs⟩

/-- A text up to the next quote like the one it starts with. -/
def quoted (quote : Char) (cs : List Char) : Chunk :=
  let body := cs.takeWhile (· ≠ quote)
  match cs.dropWhile (· ≠ quote) with
  | [] => ⟨.fault .unterminatedString, body, []⟩
  | closing :: rest => ⟨.token (.string (String.ofList body)), body ++ [closing], rest⟩

/-- The digits of a number after its first: all that follow and, if a digit stands behind a
point, the point and the digits there. -/
def numberTail (cs : List Char) : List Char × List Char :=
  let whole := cs.takeWhile Char.isDigit
  let rest := cs.dropWhile Char.isDigit
  match rest with
  | '.' :: d :: ds =>
    if d.isDigit then
      (whole ++ '.' :: (d :: ds).takeWhile Char.isDigit, (d :: ds).dropWhile Char.isDigit)
    else (whole, rest)
  | _ => (whole, rest)

/-- A number. -/
def number (c : Char) (cs : List Char) : Chunk :=
  let front := (numberTail cs).1
  let value := (Decimal.read? (c :: front)).getD (Decimal.nearest 0 0)
  ⟨.token (.number value), front, (numberTail cs).2⟩

/-- A name or a keyword. -/
def word (c : Char) (cs : List Char) : Chunk :=
  let front := cs.takeWhile Text.isNameChar
  ⟨.token (.ofWord (String.ofList (c :: front))), front, cs.dropWhile Text.isNameChar⟩

/-- The chunk at the front of the source `c :: cs`. -/
def chunk (c : Char) (cs : List Char) : Chunk :=
  match c with
  | '(' => single .leftParen cs
  | ')' => single .rightParen cs
  | '\x7b' => single .leftBrace cs
  | '\x7d' => single .rightBrace cs
  | '[' => single .leftBracket cs
  | ']' => single .rightBracket cs
  | ',' => single .comma cs
  | '.' => single .dot cs
  | ';' => single .semicolon cs
  | '*' => single .star cs
  | '%' => single .percent cs
  | '?' => single .question cs
  | ':' => single .colon cs
  | '+' => double '+' .plusPlus .plus cs
  | '-' => double '-' .minusMinus .minus cs
  | '!' => double '=' .bangEqual .bang cs
  | '<' => double '=' .lessEqual .less cs
  | '>' => double '=' .greaterEqual .greater cs
  | '=' => equalSign cs
  | '&' => doubled .andKw c cs
  | '|' => doubled .orKw c cs
  | ' ' => ⟨.skip, [], cs⟩
  | '\r' => ⟨.skip, [], cs⟩
  | '\t' => ⟨.skip, [], cs⟩
  | '\n' => ⟨.skip, [], cs⟩
  | '/' => slash cs
  | '"' => quoted c cs
  | '\'' => quoted c cs
  | _ =>
    if c.isDigit then number c cs
    else if Text.isLetter c then word c cs
    else ⟨.fault (.unexpectedCharacter c), [], cs⟩

/-! ### Nothing is lost -/

theorem double_append (next : Char) (long short : Kind) (cs : List Char) :
    (double next long short cs).front ++ (double next long short cs).rest = cs := by
  unfold double
  split
  · split <;> rfl
  · rfl

theorem equalSign_append (cs : List Char) : (equalSign cs).front ++ (equalSign cs).rest = cs := by
  unfold equalSign
  split <;> rfl

theorem doubled_append (kind : Kind) (c : Char) (cs : List Char) :
    (doubled kind c cs).front ++ (doubled kind c cs).rest = cs := by
  unfold doubled
  split
  · split <;> rfl
  · rfl

theorem slash_append (cs : List Char) : (slash cs).front ++ (slash cs).rest = cs := by
  unfold slash
  split
  · exact List.takeWhile_append_dropWhile
  · rfl

theorem quoted_append (quote : Char) (cs : List Char) :
    (quoted quote cs).front ++ (quoted quote cs).rest = cs := by
  have hcut : cs.takeWhile (· ≠ quote) ++ cs.dropWhile (· ≠ quote) = cs :=
    List.takeWhile_append_dropWhile
  simp only [quoted]
  split
  · next h => rwa [h] at hcut
  · next h => rw [h] at hcut; simpa using hcut

theorem numberTail_append (cs : List Char) : (numberTail cs).1 ++ (numberTail cs).2 = cs := by
  have hcut : cs.takeWhile Char.isDigit ++ cs.dropWhile Char.isDigit = cs :=
    List.takeWhile_append_dropWhile
  simp only [numberTail]
  split
  · next d ds hrest =>
    have htail : (d :: ds).takeWhile Char.isDigit ++ (d :: ds).dropWhile Char.isDigit = d :: ds :=
      List.takeWhile_append_dropWhile
    split
    · simp only [List.append_assoc, List.cons_append, htail]
      rw [← hrest, hcut]
    · exact hcut
  · exact hcut

theorem word_append (c : Char) (cs : List Char) : (word c cs).front ++ (word c cs).rest = cs :=
  List.takeWhile_append_dropWhile

/-- Cutting off a chunk loses nothing. -/
theorem chunk_append (c : Char) (cs : List Char) :
    (chunk c cs).front ++ (chunk c cs).rest = cs := by
  unfold chunk
  split
  case h_14 | h_15 | h_16 | h_17 | h_18 => apply double_append
  case h_19 => apply equalSign_append
  case h_20 | h_21 => apply doubled_append
  case h_26 => apply slash_append
  case h_27 | h_28 => apply quoted_append
  case h_29 =>
    split
    · apply numberTail_append
    · split
      · apply word_append
      · rfl
  all_goals rfl

/-- What follows a chunk is no longer than what follows its first character. -/
theorem length_chunk_rest_le (c : Char) (cs : List Char) :
    (chunk c cs).rest.length ≤ cs.length := by
  conv => rhs; rw [← chunk_append c cs, List.length_append]
  exact Nat.le_add_left _ _

/-! ### The whole source -/

/-- What the scan finds: a token, or a fault on some line. -/
inductive Item where
  | token (t : Token)
  | fault (line : Nat) (cause : Cause)
  deriving DecidableEq, Repr

/-- How many newlines a text holds. -/
def newlines (cs : List Char) : Nat := cs.count '\n'

/-- The item that a chunk stands for, if it is not skipped. Its line is the one on which it
ends. -/
def Chunk.item? (k : Chunk) (c : Char) (line : Nat) : Option Item :=
  match k.reading with
  | .skip => none
  | .token kind => some (.token ⟨kind, String.ofList (c :: k.front), line⟩)
  | .fault cause => some (.fault line cause)

/-- The items of a source of which `line - 1` newlines have been read already. -/
def scanFrom (line : Nat) : List Char → List Item
  | [] => [.token ⟨.endOfInput, "", line⟩]
  | c :: cs =>
    let k := chunk c cs
    let line := line + newlines (c :: k.front)
    (k.item? c line).toList ++ scanFrom line k.rest
termination_by cs => cs.length
decreasing_by
  have := length_chunk_rest_le c cs
  simp only [List.length_cons]
  omega

/-- The items of a source. -/
def scan (source : String) : List Item := scanFrom 1 source.toList

/-- The token of an item, if it is one. -/
def Item.token? : Item → Option Token
  | .token t => some t
  | .fault _ _ => none

/-- The report of an item, if it is a fault. -/
def Item.report? : Item → Option Report
  | .token _ => none
  | .fault line cause => some (.lexical line cause)

/-- The tokens of a source, and the complaints about it. -/
def tokenize (source : String) : List Token × List Report :=
  let items := scan source
  (items.filterMap Item.token?, items.filterMap Item.report?)

end Token

end Roteiro
