import Roteiro.Proofs.Decimal.Nearest

/-!
# The fewest digits are enough

The search for the shortest decimal tries one grid of decimals after another. A point that it takes
lies in the interval of the double, so the double is the nearest one to it
(`nearestOnGrid_isNearest`). A grid that is finer than three quarters of a unit of the mantissa has
a point there (`nearestOnGrid_isSome`), and the grid with seventeen digits is one, as the value is
at least a tenth of ten to its magnitude. So the search finds a decimal.

* `shortest_isNearest`: the double is the nearest one to its shortest decimal.
* `shortest_of_natural`: the shortest decimal of a natural number below `2 ^ 53` is that number.
-/

namespace Roteiro

namespace Decimal

open Binary

/-- The number of decimal digits says between which powers of ten a number lies. -/
theorem lt_pow_digitCount (n : Nat) : n < 10 ^ digitCount n :=
  (Nat.length_toDigits_le_iff (by decide) Nat.length_toDigits_pos).mp le_rfl

theorem pow_digitCount_le {n : Nat} (h : 0 < n) : 10 ^ (digitCount n - 1) ≤ n := by
  by_contra hlt
  have hcount : 0 < digitCount n := Nat.length_toDigits_pos
  rcases Nat.eq_zero_or_pos (digitCount n - 1) with hone | hmore
  · rw [hone] at hlt
    omega
  · have := (Nat.length_toDigits_le_iff (by decide) hmore).mpr (not_le.mp hlt)
    rw [← digitCount] at this
    omega

/-- A power with an exponent of either sign, over natural numbers. -/
theorem zpow_mul_pow_toNat {b : ℚ} (hb : b ≠ 0) (k : Int) :
    b ^ k * b ^ (-k).toNat = b ^ k.toNat := by
  rw [← zpow_natCast, ← zpow_natCast, ← zpow_add₀ hb]
  congr 1
  omega

namespace Digits

/-- The number that a decimal stands for. -/
def value (d : Digits) : ℚ := d.coefficient * 10 ^ d.exponent

theorem value_of_nonneg {d : Digits} (h : 0 ≤ d.exponent) :
    d.value = (d.coefficient * 10 ^ d.exponent.toNat : Nat) := by
  obtain ⟨k, hk⟩ := Int.eq_ofNat_of_zero_le h
  rw [value, hk]
  simp

theorem dropZeros_value (d : Digits) (limit : Nat) : (d.dropZeros limit).value = d.value := by
  induction limit generalizing d with
  | zero => rfl
  | succ limit ih =>
    unfold dropZeros
    split
    · next h =>
      rw [ih, value, value, Nat.cast_div (Nat.dvd_of_mod_eq_zero h.1) (by norm_num),
        zpow_add₀ (by norm_num)]
      field_simp
      norm_num
    · rfl

theorem le_dropZeros_exponent (d : Digits) (limit : Nat) :
    d.exponent ≤ (d.dropZeros limit).exponent := by
  induction limit generalizing d with
  | zero => rfl
  | succ limit ih =>
    unfold dropZeros
    split
    · have := ih ⟨d.coefficient / 10, d.exponent + 1⟩
      dsimp only at this
      omega
    · rfl

end Digits

namespace Interval

section Grid

variable (m : Nat) (e : Int) (x : Int)

/-- The common denominator of the interval and the grid. -/
def common : Nat := (ofBinary m e).denominator * 10 ^ (-x).toNat

theorem common_pos : (0 : ℚ) < common m e x := by
  simp only [common, ofBinary, Nat.pow_eq]
  positivity

theorem cast_scale :
    ((2 ^ (e - 2).toNat : Nat) : ℚ) = 2 ^ (e - 2) * (ofBinary m e).denominator := by
  simp only [ofBinary, Nat.pow_eq, Nat.cast_pow, Nat.cast_ofNat]
  rw [← zpow_mul_pow_toNat two_ne_zero (e - 2), neg_sub]

theorem cast_value :
    (((ofBinary m e).value * 10 ^ (-x).toNat : Nat) : ℚ) = m * 2 ^ e * common m e x := by
  have hvalue : (ofBinary m e).value = 4 * m * 2 ^ (e - 2).toNat := rfl
  rw [hvalue, Nat.cast_mul, Nat.cast_mul, cast_scale m e, value_eq_quarters, common]
  push_cast
  ring

theorem cast_high : (((ofBinary m e).high * 10 ^ (-x).toNat : Nat) : ℚ) =
    (4 * m + 2) * 2 ^ (e - 2) * common m e x := by
  have hhigh : (ofBinary m e).high = (4 * m + 2) * 2 ^ (e - 2).toNat := rfl
  rw [hhigh, Nat.cast_mul, Nat.cast_mul, cast_scale m e, common]
  push_cast
  ring

theorem cast_low (hm : 0 < m) : (((ofBinary m e).low * 10 ^ (-x).toNat : Nat) : ℚ) =
    (4 * m - reachBelow m e) * 2 ^ (e - 2) * common m e x := by
  have hlow : (ofBinary m e).low =
      (4 * m - if m = 2 ^ 52 ∧ leastExponent < e then 1 else 2) * 2 ^ (e - 2).toNat := rfl
  have hsub : ((4 * m - if m = 2 ^ 52 ∧ leastExponent < e then 1 else 2 : Nat) : ℚ) =
      4 * m - reachBelow m e := by
    rw [Nat.cast_sub (by split <;> omega), reachBelow]
    push_cast
    rfl
  rw [hlow, Nat.cast_mul, Nat.cast_mul, hsub, cast_scale m e, common]
  push_cast
  ring

/-- The width of the grid, over the common denominator. -/
theorem cast_unit :
    (((ofBinary m e).denominator * 10 ^ x.toNat : Nat) : ℚ) = 10 ^ x * common m e x := by
  rw [common]
  push_cast
  rw [← zpow_mul_pow_toNat (by norm_num) x]
  ring

end Grid

variable {m : Nat} {e x : Int} {tie : Tie}

/-- A point of the grid lies in the interval of a double if the double is the nearest one to it. -/
theorem contains_iff (hm : 0 < m) (k : Nat) :
    (ofBinary m e).contains (k * ((ofBinary m e).denominator * 10 ^ x.toNat))
        (10 ^ (-x).toNat) = true ↔
      IsNearest m e (k * 10 ^ x) := by
  have hC := common_pos m e x
  have hk : ((k * ((ofBinary m e).denominator * 10 ^ x.toNat) : Nat) : ℚ) =
      k * 10 ^ x * common m e x := by
    rw [Nat.cast_mul, cast_unit, mul_assoc]
  have hclosed : (ofBinary m e).closed = decide (m % 2 = 0) := rfl
  simp only [contains, hclosed, decide_eq_true_eq]
  split
  · next heven =>
    simp only [Bool.and_eq_true, decide_eq_true_eq]
    rw [← Nat.cast_le (α := ℚ), ← Nat.cast_le (α := ℚ), cast_low m e x hm, cast_high, hk,
      mul_le_mul_iff_left₀ hC, mul_le_mul_iff_left₀ hC]
    exact ⟨fun h => ⟨h.1, h.2, fun hodd => by omega⟩, fun h => ⟨h.low, h.high⟩⟩
  · next hodd =>
    simp only [Bool.and_eq_true, decide_eq_true_eq]
    rw [← Nat.cast_lt (α := ℚ), ← Nat.cast_lt (α := ℚ), cast_low m e x hm, cast_high, hk,
      mul_lt_mul_iff_left₀ hC, mul_lt_mul_iff_left₀ hC]
    exact ⟨fun h => ⟨h.1.le, h.2.le, fun _ => h⟩, fun h => h.inner (by omega)⟩

/-- **A point that is taken from a grid lies in the interval.** -/
theorem nearestOnGrid_isNearest (hm : 0 < m) {k : Nat}
    (h : (ofBinary m e).nearestOnGrid tie x = some k) : IsNearest m e (k * 10 ^ x) := by
  rw [← contains_iff hm]
  simp only [nearestOnGrid, Nat.pow_eq] at h
  generalize (ofBinary m e).value * 10 ^ (-x).toNat / ((ofBinary m e).denominator * 10 ^ x.toNat) =
    below at h
  split at h
  · next hboth =>
    obtain ⟨hlow, hhigh⟩ := Bool.and_eq_true_iff.mp hboth
    have hsettle : tie.settle below = below ∨ tie.settle below = below + 1 := by
      cases tie with
      | up => exact .inr rfl
      | toEven =>
        simp only [Tie.settle]
        split
        · exact .inl rfl
        · exact .inr rfl
    split at h <;> obtain rfl := Option.some.inj h
    · exact hlow
    · rcases hsettle with hk | hk <;> rw [hk] <;> assumption
    · exact hhigh
  · split at h
    · next hlow =>
      obtain rfl := Option.some.inj h
      exact hlow
    · split at h
      · next hhigh =>
        obtain rfl := Option.some.inj h
        exact hhigh
      · cases h

/-- Where one of the two neighbours of the value on a grid lies in the interval, one is taken. -/
theorem nearestOnGrid_isSome_of {i : Interval} {k : Nat}
    (hk : k = i.value * 10 ^ (-x).toNat / (i.denominator * 10 ^ x.toNat) ∨
      k = i.value * 10 ^ (-x).toNat / (i.denominator * 10 ^ x.toNat) + 1)
    (h : i.contains (k * (i.denominator * 10 ^ x.toNat)) (10 ^ (-x).toNat) = true) :
    (i.nearestOnGrid tie x).isSome := by
  simp only [nearestOnGrid, Nat.pow_eq]
  split
  · split <;> rfl
  · next hboth =>
    split
    · rfl
    · next hlow =>
      rcases hk with rfl | rfl
      · exact absurd h hlow
      · rw [if_pos h]
        rfl

/-- **A grid that is fine enough has a point in the interval.** -/
theorem nearestOnGrid_isSome (hm : 0 < m) (hx : (10 : ℚ) ^ x < (reachBelow m e + 2) * 2 ^ (e - 2)) :
    ((ofBinary m e).nearestOnGrid tie x).isSome := by
  have hC := common_pos m e x
  have hunit : (0 : ℚ) < 2 ^ (e - 2) := by positivity
  have hreach := one_le_reachBelow m e
  -- the value lies between its two neighbours on the grid
  let below := (ofBinary m e).value * 10 ^ (-x).toNat / ((ofBinary m e).denominator * 10 ^ x.toNat)
  have hbelow : below * 10 ^ x ≤ (m : ℚ) * 2 ^ e := by
    rw [← mul_le_mul_iff_left₀ hC, ← cast_value, mul_assoc, ← cast_unit, ← Nat.cast_mul]
    exact Nat.cast_le.mpr (Nat.div_mul_le_self _ _)
  have habove : (m : ℚ) * 2 ^ e < (below + 1 : Nat) * 10 ^ x := by
    rw [← mul_lt_mul_iff_left₀ hC, ← cast_value, mul_assoc, ← cast_unit, ← Nat.cast_mul]
    refine Nat.cast_lt.mpr (Nat.lt_mul_of_div_lt (Nat.lt_succ_self _) ?_)
    simp only [ofBinary, Nat.pow_eq]
    positivity
  rw [value_eq_quarters] at hbelow habove
  have hpos : (0 : ℚ) < 10 ^ x := by positivity
  push_cast at habove
  have hlow : (4 * (m : ℚ) - reachBelow m e) * 2 ^ (e - 2) < 4 * m * 2 ^ (e - 2) :=
    mul_lt_mul_of_pos_right (by linarith) hunit
  have hhigh : 4 * (m : ℚ) * 2 ^ (e - 2) < (4 * m + 2) * 2 ^ (e - 2) :=
    mul_lt_mul_of_pos_right (by linarith) hunit
  by_cases hin : (4 * m - reachBelow m e) * 2 ^ (e - 2) < below * (10 : ℚ) ^ x
  · refine nearestOnGrid_isSome_of (.inl rfl)
      ((contains_iff hm below).mpr ⟨hin.le, ?_, fun _ => ⟨hin, ?_⟩⟩)
    · linarith
    · linarith
  · -- the interval is wider than the grid, so the neighbour above lies in it
    have hin' : ((below + 1 : Nat) : ℚ) * 10 ^ x < (4 * m + 2) * 2 ^ (e - 2) := by
      push_cast
      linarith
    refine nearestOnGrid_isSome_of (.inr rfl)
      ((contains_iff hm (below + 1)).mpr ⟨?_, hin'.le, fun _ => ⟨?_, hin'⟩⟩)
    · push_cast
      linarith
    · push_cast
      linarith

/-! ### The search -/

/-- The value is at least a tenth of ten to its magnitude. -/
theorem pow_magnitude_le (hm : 0 < m) :
    (10 : ℚ) ^ ((ofBinary m e).magnitude - 1) ≤ m * 2 ^ e := by
  have hC := common_pos m e 0
  have hvalue := cast_value m e 0
  have hcommon : common m e 0 = (ofBinary m e).denominator := by simp [common]
  have hvpos : 0 < (ofBinary m e).value := by
    simp only [ofBinary, Nat.pow_eq]
    positivity
  rw [hcommon] at hC hvalue
  simp only [neg_zero, Int.toNat_zero, pow_zero, mul_one] at hvalue
  rw [← mul_le_mul_iff_left₀ hC, ← hvalue]
  unfold magnitude
  split
  · next hle =>
    have hquot : 0 < (ofBinary m e).value / (ofBinary m e).denominator :=
      Nat.div_pos hle (Nat.cast_pos.mp hC)
    have hcount : 0 < digitCount ((ofBinary m e).value / (ofBinary m e).denominator) :=
      Nat.length_toDigits_pos
    have hnat := (Nat.mul_le_mul_right _ (pow_digitCount_le hquot)).trans (Nat.div_mul_le_self _ _)
    have hexp : ((digitCount ((ofBinary m e).value / (ofBinary m e).denominator) : Int) - 1) =
        (digitCount ((ofBinary m e).value / (ofBinary m e).denominator) - 1 : Nat) := by omega
    rw [hexp, zpow_natCast]
    exact_mod_cast hnat
  · next hgt =>
    have hlt := lt_pow_digitCount (((ofBinary m e).denominator - 1) / (ofBinary m e).value)
    generalize digitCount (((ofBinary m e).denominator - 1) / (ofBinary m e).value) = c at hlt ⊢
    have hnat : (ofBinary m e).denominator ≤ 10 ^ c * (ofBinary m e).value := by
      have := (Nat.div_lt_iff_lt_mul hvpos).mp hlt
      omega
    have hcast : ((ofBinary m e).denominator : ℚ) ≤ 10 ^ c * (ofBinary m e).value := by
      exact_mod_cast hnat
    have hexp : (1 - Int.ofNat c - 1 : Int) = -(c : Int) := by
      rw [Int.ofNat_eq_natCast]
      omega
    rw [hexp, zpow_neg, zpow_natCast]
    exact (inv_mul_le_iff₀ (by positivity)).mpr hcast

/-- The search takes the first grid with a point in the interval. -/
theorem search_of_isSome {i : Interval} {count tries j : Nat} (hj : j < tries)
    (hsome : (i.nearestOnGrid tie (i.magnitude - Int.ofNat (count + j))).isSome) :
    ∃ k ≤ j, (i.search tie count tries).exponent = i.magnitude - Int.ofNat (count + k) ∧
      i.nearestOnGrid tie (i.search tie count tries).exponent =
        some (i.search tie count tries).coefficient := by
  induction tries generalizing count j with
  | zero => cases hj
  | succ tries ih =>
    rw [search]
    split
    · next coefficient hfound => exact ⟨0, Nat.zero_le j, rfl, hfound⟩
    · next hnone =>
      cases j with
      | zero =>
        rw [Nat.add_zero, hnone] at hsome
        cases hsome
      | succ j =>
        rw [← Nat.add_assoc, Nat.add_right_comm] at hsome
        obtain ⟨k, hk, hexponent, hfound⟩ := ih (Nat.lt_of_succ_lt_succ hj) hsome
        refine ⟨k + 1, Nat.succ_le_succ hk, ?_, hfound⟩
        rw [hexponent, ← Nat.add_assoc, Nat.add_right_comm]

/-- **Seventeen digits are enough.** -/
theorem isSome_seventeen (tie : Tie) (hf : Fits m e) (hm : 0 < m) :
    ((ofBinary m e).nearestOnGrid tie ((ofBinary m e).magnitude - Int.ofNat (1 + 16))).isSome := by
  refine nearestOnGrid_isSome hm ?_
  have hunit : (0 : ℚ) < 2 ^ (e - 2) := by positivity
  have hlt : (m : ℚ) + 1 ≤ 2 ^ 53 := by exact_mod_cast hf.lt
  have hmagnitude := pow_magnitude_le (e := e) hm
  have hexp : (10 : ℚ) ^ ((ofBinary m e).magnitude - Int.ofNat (1 + 16)) =
      10 ^ ((ofBinary m e).magnitude - 1) / 10 ^ 16 := by
    rw [← zpow_natCast, ← zpow_sub₀ (by norm_num)]
    congr 1
    rw [Int.ofNat_eq_natCast]
    omega
  rw [value_eq_quarters] at hmagnitude
  rw [hexp, div_lt_iff₀ (by norm_num)]
  refine hmagnitude.trans_lt ?_
  rw [mul_right_comm _ _ (10 ^ 16 : ℚ)]
  refine mul_lt_mul_of_pos_right ?_ hunit
  unfold reachBelow
  split
  · next hnarrow =>
    rw [hnarrow.1]
    norm_num
  · norm_num at hlt ⊢
    linarith

end Interval

namespace Digits

variable {m : Nat} {e : Int} {tie : Tie}

/-- **The shortest decimal reads back.** The double is the nearest one to it. -/
theorem shortest_isNearest (tie : Tie) (hf : Fits m e) :
    IsNearest m e (shortest tie m e).value := by
  unfold shortest
  split
  · next hm =>
    rw [hm, value, Nat.cast_zero, zero_mul, ← zero_mul (2 ^ e : ℚ), ← Nat.cast_zero]
    exact isNearest_self 0 e
  · next hm =>
    have hpos := Nat.pos_of_ne_zero hm
    obtain ⟨k, -, -, hfound⟩ :=
      Interval.search_of_isSome (by decide : 16 < 17) (Interval.isSome_seventeen tie hf hpos)
    rw [dropZeros_value]
    exact Interval.nearestOnGrid_isNearest hpos hfound

/-- The only natural number that is nearest to one below `2 ^ 53` is that number. -/
theorem eq_of_isNearest {i n : Nat} (hi : (m : ℚ) * 2 ^ e = i) (he : e ≤ 0) (h : IsNearest m e n) :
    n = i := by
  have hunit : (2 : ℚ) ^ (e - 2) ≤ 1 / 4 := by
    calc (2 : ℚ) ^ (e - 2) ≤ 2 ^ (-2 : Int) := zpow_le_zpow_right₀ one_le_two (by omega)
      _ = 1 / 4 := by norm_num
  have hreach := mul_le_mul_of_nonneg_right (reachBelow_le m e)
    (by positivity : (0 : ℚ) ≤ 2 ^ (e - 2))
  have hlow := h.low
  have hhigh := h.high
  rw [value_eq_quarters] at hi
  rw [sub_mul, hi] at hlow
  rw [add_mul, hi] at hhigh
  have hle : (n : ℚ) < i + 1 := by linarith
  have hge : (i : ℚ) < n + 1 := by linarith
  have hle : n < i + 1 := by exact_mod_cast hle
  have hge : i < n + 1 := by exact_mod_cast hge
  omega

/-- A natural number below `2 ^ 53` has no zeros behind its bits. -/
theorem exponent_nonpos (hf : Fits m e) {i : Nat} (hi : (m : ℚ) * 2 ^ e = i) (hlt : i < 2 ^ 53) :
    e ≤ 0 := by
  by_contra hgt
  have hnormal : (2 : ℚ) ^ 52 ≤ m := by
    exact_mod_cast hf.normal.resolve_right (by have : leastExponent = -1074 := rfl; omega)
  have hpow : (2 : ℚ) ^ 1 ≤ 2 ^ e := by
    rw [← zpow_natCast]
    exact zpow_le_zpow_right₀ one_le_two (by omega)
  have hbig : (2 : ℚ) ^ 52 * 2 ^ 1 ≤ i :=
    hi ▸ mul_le_mul hnormal hpow (by norm_num) (by positivity)
  have hlt : (i : ℚ) < 2 ^ 53 := by exact_mod_cast hlt
  norm_num at hbig hlt
  linarith

/-- In front of the point a natural number has all of its digits. -/
theorem interval_of_natural {i : Nat} (hi : (m : ℚ) * 2 ^ e = i) (hpos : 0 < i) :
    (Interval.ofBinary m e).value / (Interval.ofBinary m e).denominator = i ∧
      (Interval.ofBinary m e).magnitude = digitCount i := by
  have hden : 0 < (Interval.ofBinary m e).denominator := by
    simp only [Interval.ofBinary, Nat.pow_eq]
    positivity
  have hvalue : (Interval.ofBinary m e).value = i * (Interval.ofBinary m e).denominator := by
    have hcast := Interval.cast_value m e 0
    simp only [hi, Interval.common, neg_zero, Int.toNat_zero, pow_zero, mul_one] at hcast
    exact_mod_cast hcast
  have hquot : (Interval.ofBinary m e).value / (Interval.ofBinary m e).denominator = i := by
    rw [hvalue, Nat.mul_div_cancel _ hden]
  refine ⟨hquot, ?_⟩
  rw [Interval.magnitude, hquot, if_pos]
  rw [hvalue]
  exact Nat.le_mul_of_pos_left _ hpos

/-- **The shortest decimal of a natural number below `2 ^ 53`** is that number, and has no digits
after the point. -/
theorem shortest_of_natural (tie : Tie) (hf : Fits m e) {i : Nat} (hi : (m : ℚ) * 2 ^ e = i)
    (hpos : 0 < i) (hlt : i < 2 ^ 53) :
    0 ≤ (shortest tie m e).exponent ∧ (shortest tie m e).value = i := by
  have hm : 0 < m := by
    refine Nat.pos_of_ne_zero fun hzero => hpos.ne ?_
    rw [hzero, Nat.cast_zero, zero_mul] at hi
    exact_mod_cast hi
  obtain ⟨hquot, hmagnitude⟩ := interval_of_natural hi hpos
  have hcount : 0 < digitCount i := Nat.length_toDigits_pos
  have hsixteen : digitCount i ≤ 16 :=
    (Nat.length_toDigits_le_iff (by decide) (by decide)).mpr (by omega)
  -- the number is a point of the grid of the natural numbers
  have hsome : ((Interval.ofBinary m e).nearestOnGrid tie ((Interval.ofBinary m e).magnitude -
      Int.ofNat (1 + (digitCount i - 1)))).isSome := by
    have hzero : (Interval.ofBinary m e).magnitude - Int.ofNat (1 + (digitCount i - 1)) = 0 := by
      rw [hmagnitude, Int.ofNat_eq_natCast]
      omega
    rw [hzero]
    refine Interval.nearestOnGrid_isSome_of (k := i) (.inl ?_) ((Interval.contains_iff hm i).mpr ?_)
    · simpa using hquot.symm
    · rw [zpow_zero, mul_one, ← hi]
      exact isNearest_self m e
  obtain ⟨k, hk, hexponent, -⟩ :=
    Interval.search_of_isSome (by omega : digitCount i - 1 < 17) hsome
  have hshortest : shortest tie m e = ((Interval.ofBinary m e).search tie 1 17).dropZeros 17 :=
    if_neg hm.ne'
  have hnonneg : 0 ≤ (shortest tie m e).exponent := by
    refine le_trans ?_ (hshortest ▸ le_dropZeros_exponent _ 17)
    rw [hexponent, hmagnitude, Int.ofNat_eq_natCast]
    omega
  refine ⟨hnonneg, ?_⟩
  have hnearest := shortest_isNearest tie hf
  rw [value_of_nonneg hnonneg] at hnearest ⊢
  rw [eq_of_isNearest hi (exponent_nonpos hf hi hlt) hnearest]

end Digits

end Decimal

end Roteiro
