/-!
# How much two words resemble each other

Two characters of two words *meet* if they are equal and stand at about the same place. With `m`
meeting pairs between words of `a` and `b` characters, of which `t` pairs would have to be exchanged
to bring them into the same order, the resemblance is the mean of `m / a`, `m / b` and
`(m - t) / m`: 1 for equal words, 0 for words without a meeting pair.
-/

namespace Roteiro

namespace Text

/-- A resemblance, as a fraction. -/
structure Resemblance where
  numerator : Nat
  denominator : Nat
  deriving DecidableEq, Repr

namespace Resemblance

/-- Whether one resemblance is no stronger than another. -/
def atMost (r s : Resemblance) : Bool := r.numerator * s.denominator ≤ s.numerator * r.denominator

/-- Marks the first unmarked `c` at one of the places from `first` to `last` of a word, whose
characters are numbered from `place` on. -/
def mark? (c : Char) (first last : Nat) : Nat → List (Char × Bool) → Option (List (Char × Bool))
  | _, [] => none
  | place, (d, marked) :: word =>
    if first ≤ place ∧ place ≤ last ∧ d = c ∧ !marked then some ((d, true) :: word)
    else (mark? c first last (place + 1) word).map ((d, marked) :: ·)

/-- The characters of the first word, numbered from `place` on, that meet one of the second; and
the second word, with those marked that were met. Places may differ by at most `range`. -/
def meeting (range : Nat) : Nat → List Char → List (Char × Bool) → List Char × List (Char × Bool)
  | _, [], second => ([], second)
  | place, c :: first, second =>
    match mark? c (place - range) (place + range) 0 second with
    | some second =>
      let (met, second) := meeting range (place + 1) first second
      (c :: met, second)
    | none => meeting range (place + 1) first second

/-- The resemblance of two words. -/
def of (first second : List Char) : Resemblance :=
  let a := first.length
  let b := second.length
  let (met, marked) := meeting (max a b / 2 - 1) 0 first (second.map (·, false))
  let metBy := (marked.filter (·.2)).map (·.1)
  let m := met.length
  let t := ((met.zip metBy).filter fun (c, d) => c ≠ d).length / 2
  if m = 0 then ⟨if a = 0 ∧ b = 0 then 1 else 0, 1⟩
  else ⟨m * m * b + m * m * a + (m - t) * a * b, 3 * a * b * m⟩

end Resemblance

/-- The one of the given words that resembles a word most, if one resembles it by more than seven
tenths. -/
def mostAlike? (word : String) (words : List String) : Option String :=
  let strongest := words.foldl (fun best w =>
    let r := Resemblance.of word.toList w.toList
    if best.2.atMost r then (some w, r) else best) (none, ⟨0, 1⟩)
  if strongest.2.atMost ⟨7, 10⟩ then none else strongest.1

/-- A word resembles nothing among no words. -/
theorem mostAlike?_nil (word : String) : mostAlike? word [] = none := rfl

end Text

end Roteiro
