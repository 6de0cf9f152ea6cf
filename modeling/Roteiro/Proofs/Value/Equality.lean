import Roteiro.Proofs.Decimal.Rounding
import Roteiro.Proofs.Decimal.Text
import Roteiro.Machine.Builtin

/-!
# Loose equality

Loose equality looks at two values of any kinds: a truth value is compared with the truth of the
other value, a number with what a text is read as, and all else by what it is. It does not matter
which of two values stands on the left, although the cases are tried in an order, and every value
equals itself but for what is no number.

A number is compared with how it is written only if the text is none that can be read. But the text
of every double can be read, so this comparison never holds (`numberEqualsText_iff`).

* `beq_ofInteger_iff`: when a double equals a natural number.
* `looseEq_comm`, `looseEq_self`: loose equality of any two values, and of a value and itself.
-/

namespace Roteiro

open Decimal (readTrimmed? display)

/-- What is not a number has the parts of none. -/
theorem Decimal.Binary.ofFloat_ne_of_isNaN {x : Float} (h : x.isNaN = false) :
    ofFloat x ≠ .notANumber := by
  intro hx
  rw [ofFloat_eq, ofUnpacked_eq_notANumber_iff] at hx
  have hnan : x.isNaN = x.toModel.unpack.isNaN := rfl
  rw [hnan, hx] at h
  cases h

/-- A double equals a natural number below `2 ^ 53` if it stands for that number. -/
theorem Builtin.beq_ofInteger_iff {x : Float} {n : Nat} (hlt : n < 2 ^ 53) :
    (x == ofInteger n) = true ↔ (Decimal.Binary.ofFloat x).value? = some (n : ℚ) := by
  have hinteger : ofInteger n = Decimal.nearest n 0 := if_neg (by simp)
  have hvalue := Decimal.Binary.value?_nearest hlt
  rw [hinteger]
  constructor
  · intro h
    rw [Decimal.Binary.value?_eq_of_beq h, hvalue]
  · intro h
    exact (Decimal.Binary.beq_iff_of_value h hvalue).mpr rfl

namespace Value

theorem truthy_boolean (b : Bool) : (boolean b).truthy = b := by
  cases b <;> rfl

/-- It does not matter which of two values stands on the left. -/
theorem looseEq_comm (x y : Value) : x.looseEq y = y.looseEq x := by
  cases x <;> cases y
  case number.number => exact BEq.comm
  case boolean.boolean => simp only [looseEq, truthy_boolean, eq_comm]
  all_goals simp only [looseEq, eq_comm]

/-- Every value equals itself but for what is no number. -/
theorem looseEq_self {x : Value} (h : ∀ n, x = .number n → n.isNaN = false) :
    x.looseEq x = true := by
  cases x with
  | number n =>
    have hn := Decimal.Binary.ofFloat_ne_of_isNaN (h n rfl)
    exact Decimal.Binary.beq_iff.mpr ⟨hn, hn, .inl rfl⟩
  | boolean b => simp [looseEq, truthy_boolean]
  | _ => simp [looseEq]

/-- A text that is none of a number is not how a number is written. -/
theorem display_ne_of_readTrimmed?_eq_none {s : String} (h : readTrimmed? s = none) (n : Float) :
    display n ≠ s := by
  rintro rfl
  obtain ⟨p, hp⟩ := Decimal.exists_readTrimmed?_display n
  rw [h] at hp
  cases hp

/-- A number and a text are compared as numbers only. -/
theorem numberEqualsText_iff (n : Float) (s : String) :
    numberEqualsText n s = true ↔ ∃ p, readTrimmed? s = some p ∧ (p == n) = true := by
  unfold numberEqualsText
  cases hread : readTrimmed? s with
  | none => simpa using display_ne_of_readTrimmed?_eq_none hread n
  | some p => simp [BEq.comm (a := n)]

/-- **Loose equality** is symmetric, and reflexive but for what is no number. A number equals a text
just if the text without blanks around it is read as that number; where it is read as none, it is
not how the number is written either, so that this last comparison never decides. -/
theorem looseEq_laws :
    (∀ x y : Value, x.looseEq y = y.looseEq x) ∧
    (∀ x : Value, (∀ n, x = .number n → n.isNaN = false) → x.looseEq x = true) ∧
    ∀ (n : Float) (s : String),
      ((number n).looseEq (.string s) = true ↔ ∃ p, readTrimmed? s = some p ∧ (p == n) = true) ∧
      (readTrimmed? s = none → display n ≠ s) :=
  ⟨looseEq_comm, fun _ => looseEq_self, fun n s =>
    ⟨numberEqualsText_iff n s, fun h => display_ne_of_readTrimmed?_eq_none h n⟩⟩

/-- A number written in another way, and a text that is none. -/
theorem looseEq_thousand :
    (string " 1e3 ").looseEq (.number 1000) = true ∧ (number 1000).looseEq (.number 1000) = true ∧
      display 1000 ≠ "mil" := by
  refine ⟨?_, looseEq_laws.2.1 (.number 1000) ?_, (looseEq_laws.2.2 1000 "mil").2 rfl⟩
  · rw [looseEq_laws.1]
    exact (looseEq_laws.2.2 1000 " 1e3 ").1.mpr ⟨Decimal.nearest 1 3, rfl, by decide +kernel⟩
  · rintro n ⟨⟩
    decide +kernel

end Value

end Roteiro
