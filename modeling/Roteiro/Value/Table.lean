import Roteiro.Decimal.Reader
import Std.Data.TreeMap

/-!
# Arrays of the language

An array of the language is an ordered table from texts to values: a new key goes to the end, a key
that is there keeps its place. The positions of the keys are kept beside the entries, for look-up,
and so is whether the keys are just the positions `0`, `1`, … in their order (the table is *dense*).
-/

namespace Roteiro

/-- An ordered table. -/
structure Table (α : Type) where
  entries : Array (String × α)
  /-- The place of each key among the entries. -/
  positions : Std.TreeMap String Nat
  /-- Whether the keys are the texts of their places. -/
  dense : Bool

namespace Table

variable {α : Type}

/-- The table without entries. -/
def empty : Table α := ⟨#[], ∅, true⟩

instance : Inhabited (Table α) := ⟨empty⟩

/-- How many entries a table has. -/
def size (t : Table α) : Nat := t.entries.size

/-- The value under a key. -/
def get? (t : Table α) (key : String) : Option α :=
  match t.positions[key]? with
  | some place => t.entries[place]?.map Prod.snd
  | none => none

/-- Whether there is a value under a key. -/
def contains (t : Table α) (key : String) : Bool := t.positions.contains key

/-- Whether a text is how a position is written: digits, of which the first is no zero unless it is
the only one, and which stand for that position. A text of more digits than a position can have
stands for another number. -/
def isPosition (key : String) (place : Nat) : Bool :=
  let digits := key.toList
  let canonical := digits.all Char.isDigit && (key = "0" || digits.head? ≠ some '0')
  canonical && digits ≠ [] && Decimal.digitsValue 0 digits = place

/-- Puts a value under a key: in its place if the key is there, at the end otherwise. -/
def put (t : Table α) (key : String) (value : α) : Table α :=
  match t.positions[key]? with
  | some place => { t with entries := t.entries.setIfInBounds place (key, value) }
  | none =>
    let place := t.entries.size
    { entries := t.entries.push (key, value)
      positions := t.positions.insert key place
      dense := t.dense && isPosition key place }

/-- Puts a value under the text of the number of entries. -/
def push (t : Table α) (value : α) : Table α := t.put (Decimal.naturalText t.size) value

/-- The table of the given values under the keys `0`, `1`, … . -/
def ofList (values : List α) : Table α := values.foldl push empty

/-- The keys of a table, in order. -/
def keys (t : Table α) : List String := t.entries.toList.map Prod.fst

/-- The text of a table, given the texts of its values. Keys are shown unless the table is
dense. -/
def text (t : Table α) (show_ : α → String) : String :=
  let entry : String × α → String
    | (key, value) => if t.dense then show_ value else s!"{key} => {show_ value}"
  "[" ++ ", ".intercalate (t.entries.toList.map entry) ++ "]"

end Table

end Roteiro
