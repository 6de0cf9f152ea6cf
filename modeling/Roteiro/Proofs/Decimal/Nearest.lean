import Roteiro.Proofs.Decimal.Number
import Roteiro.Decimal.Shortest

/-!
# The numbers around a double

Every positive double is the nearest one to a whole interval of numbers. It reaches half a unit of
the mantissa up, and half a unit down, or a quarter where the mantissas below are twice as fine. A
number halfway between two doubles belongs to the one with the even mantissa, so the intervals of
two doubles have no number in common (`IsNearest.unique`). In particular no two pairs of a mantissa
and an exponent in normal form stand for the same number.

* `IsNearest.unique`: a number has one nearest double.
* `beq_iff_of_value`: doubles are equal as numbers are.
-/

namespace Roteiro

namespace Decimal

namespace Binary

/-! ### Values -/

/-- The number that parts stand for. -/
def value? : Binary → Option ℚ
  | .finite negative m e => some ((if negative then -1 else 1) * (m * 2 ^ e))
  | .infinite _ => none
  | .notANumber => none

theorem signed_cast (negative : Bool) (n : Nat) :
    (signed negative n : ℚ) = (if negative then -1 else 1) * n := by
  cases negative <;> simp [signed]

/-- A number is an integer if it stands for one. -/
theorem toInt?_eq_some_iff {b : Binary} {n : Int} :
    b.toInt? = some n ↔ b.value? = some (n : ℚ) := by
  match b with
  | .finite negative m (.ofNat k) =>
    have hvalue : ((signed negative (m * Nat.pow 2 k) : Int) : ℚ) =
        (if negative then -1 else 1) * (m * 2 ^ (Int.ofNat k)) := by
      rw [signed_cast]
      simp [Nat.pow_eq]
    rw [toInt?, value?, ← hvalue, Option.some_inj, Option.some_inj, Int.cast_inj]
  | .finite negative m (.negSucc k) =>
    have hpow : ((2 ^ (k + 1) : Nat) : ℚ) ≠ 0 := by positivity
    have hvalue : (m : ℚ) * 2 ^ (Int.negSucc k) = m / (2 ^ (k + 1) : Nat) := by
      rw [zpow_negSucc, div_eq_mul_inv]
      simp
    rw [toInt?, value?, hvalue, Option.some_inj, Nat.pow_eq]
    split
    · next hmod =>
      rw [Option.some_inj, ← Nat.cast_div (Nat.dvd_of_mod_eq_zero hmod) hpow, ← signed_cast,
        Int.cast_inj]
    · next hmod =>
      simp only [reduceCtorEq, false_iff]
      intro hn
      -- a fraction that is an integer has a numerator that its denominator divides
      have habs : (m : ℚ) = (n.natAbs * 2 ^ (k + 1) : Nat) := by
        have hm : (m : ℚ) / (2 ^ (k + 1) : Nat) = |(n : ℚ)| := by
          have hpos : (0 : ℚ) ≤ m / (2 ^ (k + 1) : Nat) := by positivity
          rw [← hn, abs_mul, abs_of_nonneg hpos]
          cases negative <;> simp
        rw [Nat.cast_mul, Nat.cast_natAbs, Int.cast_abs, ← hm, div_mul_cancel₀ _ hpow]
      rw [Nat.cast_injective habs] at hmod
      exact hmod (Nat.mul_mod_left _ _)
  | .infinite _ => simp [toInt?, value?]
  | .notANumber => simp [toInt?, value?]

/-! ### Intervals -/

/-- How far the interval of a double reaches down, in quarters of a unit of its mantissa. -/
def reachBelow (m : Nat) (e : Int) : ℚ := if m = 2 ^ 52 ∧ leastExponent < e then 1 else 2

theorem reachBelow_le (m : Nat) (e : Int) : reachBelow m e ≤ 2 := by
  unfold reachBelow
  split <;> norm_num

theorem one_le_reachBelow (m : Nat) (e : Int) : 1 ≤ reachBelow m e := by
  unfold reachBelow
  split <;> norm_num

/-- The nearest double to `q` is `m · 2 ^ e`. -/
structure IsNearest (m : Nat) (e : Int) (q : ℚ) : Prop where
  low : (4 * m - reachBelow m e) * 2 ^ (e - 2) ≤ q
  high : q ≤ (4 * m + 2) * 2 ^ (e - 2)
  /-- A number at the end of the interval belongs to it only if the mantissa is even. -/
  inner : m % 2 = 1 → (4 * m - reachBelow m e) * 2 ^ (e - 2) < q ∧ q < (4 * m + 2) * 2 ^ (e - 2)

theorem value_eq_quarters (m : Nat) (e : Int) : (m : ℚ) * 2 ^ e = 4 * m * 2 ^ (e - 2) := by
  rw [zpow_sub₀ two_ne_zero]
  norm_num
  ring

/-- A double is the nearest one to itself. -/
theorem isNearest_self (m : Nat) (e : Int) : IsNearest m e (m * 2 ^ e) := by
  have hunit : (0 : ℚ) < 2 ^ (e - 2) := by positivity
  have hreach := one_le_reachBelow m e
  rw [value_eq_quarters]
  have hlow : (4 * m - reachBelow m e) * 2 ^ (e - 2) < 4 * (m : ℚ) * 2 ^ (e - 2) :=
    mul_lt_mul_of_pos_right (by linarith) hunit
  have hhigh : 4 * (m : ℚ) * 2 ^ (e - 2) < (4 * m + 2) * 2 ^ (e - 2) :=
    mul_lt_mul_of_pos_right (by linarith) hunit
  exact ⟨hlow.le, hhigh.le, fun _ => ⟨hlow, hhigh⟩⟩

section Unique

variable {m m' : Nat} {e e' : Int} {q : ℚ}

/-- On one exponent, the intervals lie side by side. -/
theorem IsNearest.not_lt_mantissa (h : IsNearest m e q) (h' : IsNearest m' e q) : ¬ m < m' := by
  intro hlt
  have hunit : (0 : ℚ) < 2 ^ (e - 2) := by positivity
  have hreach := reachBelow_le m' e
  have hstep : (m : ℚ) + 1 ≤ m' := by exact_mod_cast hlt
  have hends : (4 * m + 2) * 2 ^ (e - 2) ≤ (4 * (m' : ℚ) - reachBelow m' e) * 2 ^ (e - 2) :=
    mul_le_mul_of_nonneg_right (by linarith) hunit.le
  -- the ends meet only between neighbours, of which one is odd
  rcases Nat.mod_two_eq_zero_or_one m with heven | hodd
  · rcases Nat.mod_two_eq_zero_or_one m' with heven' | hodd'
    · have hstep : (m : ℚ) + 2 ≤ m' := by exact_mod_cast (by omega : m + 2 ≤ m')
      have : (4 * m + 2) * 2 ^ (e - 2) < (4 * (m' : ℚ) - reachBelow m' e) * 2 ^ (e - 2) :=
        mul_lt_mul_of_pos_right (by linarith) hunit
      linarith [h.high, h'.low]
    · linarith [h.high, (h'.inner hodd').1]
  · linarith [(h.inner hodd).2, h'.low]

/-- The interval of a double lies below those of greater exponents. -/
theorem IsNearest.not_lt_exponent (hf : Fits m e) (hf' : Fits m' e') (h : IsNearest m e q)
    (h' : IsNearest m' e' q) : ¬ e < e' := by
  intro hlt
  have hunit : (0 : ℚ) < 2 ^ (e' - 3) := by positivity
  have hunit' : (2 : ℚ) ^ (e' - 2) = 2 * 2 ^ (e' - 3) := by
    rw [show e' - 2 = 1 + (e' - 3) by ring, zpow_add₀ two_ne_zero, zpow_one]
  have hpow : (2 : ℚ) ^ (e - 2) ≤ 2 ^ (e' - 3) := zpow_le_zpow_right₀ one_le_two (by omega)
  have hm : (m : ℚ) + 1 ≤ 2 ^ 53 := by exact_mod_cast hf.lt
  have hnormal : 2 ^ 52 ≤ m' := hf'.normal.resolve_right (by have := hf.least_le; omega)
  have hm' : (2 : ℚ) ^ 52 ≤ m' := by exact_mod_cast hnormal
  have hhigh : (4 * (m : ℚ) + 2) * 2 ^ (e - 2) ≤ (2 ^ 55 - 2) * 2 ^ (e' - 3) :=
    mul_le_mul (by linarith) hpow (by positivity) (by norm_num)
  -- the least mantissa of 53 bits reaches down a quarter only
  have hlow : (2 ^ 55 - 2) * 2 ^ (e' - 3) ≤ (4 * (m' : ℚ) - reachBelow m' e') * 2 ^ (e' - 2) := by
    rw [hunit', ← mul_assoc]
    refine mul_le_mul_of_nonneg_right ?_ hunit.le
    unfold reachBelow
    split
    · linarith
    · next hnarrow =>
      have hne : m' ≠ 2 ^ 52 := fun heq => hnarrow ⟨heq, by have := hf.least_le; omega⟩
      have hm' : (2 : ℚ) ^ 52 + 1 ≤ m' := by exact_mod_cast (by omega : 2 ^ 52 + 1 ≤ m')
      linarith
  rcases Nat.mod_two_eq_zero_or_one m with heven | hodd
  · have hm : (m : ℚ) + 2 ≤ 2 ^ 53 := by
      have hlt := hf.lt
      exact_mod_cast (by omega : m + 2 ≤ 2 ^ 53)
    have : (4 * (m : ℚ) + 2) * 2 ^ (e - 2) ≤ (2 ^ 55 - 6) * 2 ^ (e' - 3) :=
      mul_le_mul (by linarith) hpow (by positivity) (by norm_num)
    linarith [h.high, h'.low]
  · linarith [(h.inner hodd).2, h'.low]

/-- **A number has one nearest double.** -/
theorem IsNearest.unique (hf : Fits m e) (hf' : Fits m' e') (h : IsNearest m e q)
    (h' : IsNearest m' e' q) : m = m' ∧ e = e' := by
  obtain rfl : e = e' := le_antisymm (not_lt.mp (h'.not_lt_exponent hf' hf h))
    (not_lt.mp (h.not_lt_exponent hf hf' h'))
  exact ⟨le_antisymm (not_lt.mp (h'.not_lt_mantissa h)) (not_lt.mp (h.not_lt_mantissa h')), rfl⟩

/-- No two pairs in normal form stand for the same number. -/
theorem Fits.unique (hf : Fits m e) (hf' : Fits m' e') (h : (m : ℚ) * 2 ^ e = m' * 2 ^ e') :
    m = m' ∧ e = e' :=
  (isNearest_self m e).unique hf hf' (h ▸ isNearest_self m' e')

end Unique

/-! ### Equality -/

variable {x y : Float} {p q : ℚ}

/-- **Doubles are equal as numbers are.** -/
theorem beq_iff_of_value (hx : (ofFloat x).value? = some p) (hy : (ofFloat y).value? = some q) :
    (x == y) = true ↔ p = q := by
  rw [beq_iff]
  cases hbx : ofFloat x with
  | infinite | notANumber =>
    rw [hbx] at hx
    cases hx
  | finite negative m e =>
  cases hby : ofFloat y with
  | infinite | notANumber =>
    rw [hby] at hy
    cases hy
  | finite negative' m' e' =>
  rw [hbx] at hx
  rw [hby] at hy
  have hp := Option.some.inj hx
  have hq := Option.some.inj hy
  simp only [ne_eq, reduceCtorEq, not_false_eq_true, true_and]
  constructor
  · rintro (h | ⟨⟨n, h⟩, ⟨n', h'⟩⟩)
    · cases h
      exact hp.symm.trans hq
    · cases h
      cases h'
      rw [← hp, ← hq]
      simp
  · rintro rfl
    have hpos : (0 : ℚ) ≤ m * 2 ^ e := by positivity
    have hpos' : (0 : ℚ) ≤ m' * 2 ^ e' := by positivity
    have habs : (m : ℚ) * 2 ^ e = m' * 2 ^ e' := by
      have := congrArg abs (hp.trans hq.symm)
      cases negative <;> cases negative' <;> simpa [abs_mul, abs_of_nonneg] using this
    obtain ⟨rfl, rfl⟩ := (fits_ofFloat hbx).unique (fits_ofFloat hby) habs
    rcases Nat.eq_zero_or_pos m with rfl | hm
    · have hleast : e = leastExponent := (fits_ofFloat hbx).normal.resolve_left (by norm_num)
      exact .inr ⟨⟨negative, by rw [hleast]⟩, ⟨negative', by rw [hleast]⟩⟩
    · left
      have hpos : (0 : ℚ) < m * 2 ^ e := by positivity
      cases negative <;> cases negative' <;> first | rfl | (exfalso; simp at hp hq; linarith)

/-- Equal doubles stand for the same number. -/
theorem value?_eq_of_beq (h : (x == y) = true) : (ofFloat x).value? = (ofFloat y).value? := by
  obtain ⟨-, -, h | ⟨⟨n, hx⟩, ⟨n', hy⟩⟩⟩ := beq_iff.mp h
  · rw [h]
  · rw [hx, hy]
    simp [value?]

end Binary

end Decimal

end Roteiro
