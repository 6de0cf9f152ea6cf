import Roteiro.Proofs.Decimal.Nearest
import Roteiro.Decimal.Reader

/-!
# Rounding to doubles

A number that is read is the double nearest to a decimal, and the library's model of doubles says
how it is rounded, packed into bits and unpacked again. A number that is a double already is left as
it is, however many zeros stand behind its bits (`roundWithAccuracy_exact`), and what fits is
unpacked as it was packed (`unpack_pack`). So the natural numbers that have no more than 53 bits are
doubles.

Nothing that is read without a sign is negative, as products and quotients of numbers that are not
negative are not negative. So two numbers that are read without a sign are the same double if they
are equal.

* `value?_nearest`: natural numbers below `2 ^ 53` are doubles.
* `nearest_eq_of_beq`: equal numbers without a sign are the same.
-/

namespace Roteiro

namespace Decimal

namespace Binary

open Float.Model (UnpackedFloat Format)
open Float.Model.UnpackedFloat (Sign Accuracy ExtendedMantissa)

variable {m : Nat} {e : Int} {s : Sign}

theorem log2_eq_of_normal (hlt : m < 2 ^ 53) (hle : 2 ^ 52 ≤ m) : m.log2 = 52 :=
  (Nat.log2_eq_iff (by omega)).mpr ⟨hle, hlt⟩

/-- The exponent that a number is rounded to is its own if it is a double, with whatever zeros
behind its bits. -/
theorem targetExponent_of_fits (hf : Fits m e) (hm : 0 < m) (k : Nat) :
    Format.binary64.targetExponent (Float.Model.totalExponent (m * 2 ^ k) (e - k)) = e := by
  have hlog : (m * 2 ^ k).log2 = m.log2 + k := by
    rw [Nat.log2_eq_iff (by positivity)]
    have := (Nat.log2_eq_iff hm.ne').mp rfl
    constructor
    · rw [Nat.pow_add]
      exact Nat.mul_le_mul_right _ this.1
    · rw [Nat.add_right_comm, Nat.pow_add]
      exact Nat.mul_lt_mul_of_pos_right this.2 (by positivity)
  have hle := hf.least_le
  have hleast : leastExponent = -1074 := rfl
  have hmin : Format.binary64.minExponent = -1074 := rfl
  have hbits : Format.binary64.mantissaBits = 53 := rfl
  rw [Format.targetExponent, Float.Model.totalExponent, hlog, hmin, hbits]
  rcases hf.normal with hnormal | hsub
  · rw [log2_eq_of_normal hf.lt hnormal]
    push_cast
    omega
  · have : m.log2 < 53 := (Nat.log2_lt hm.ne').mpr hf.lt
    push_cast
    omega

/-- Zeros are shifted out without a trace. -/
theorem repeat_shiftRightOne (m k : Nat) :
    k.repeat ExtendedMantissa.shiftRightOne ⟨m * 2 ^ k, false, false⟩ = ⟨m, false, false⟩ := by
  induction k generalizing m with
  | zero => simp [Nat.repeat]
  | succ k ih =>
    have hstep := ih (m * 2)
    rw [Nat.mul_assoc, ← Nat.pow_succ'] at hstep
    rw [Nat.repeat, hstep]
    simp [ExtendedMantissa.shiftRightOne]

theorem shiftToTargetExponent_exact (hf : Fits m e) (hm : 0 < m) (k : Nat) :
    UnpackedFloat.shiftToTargetExponent Format.binary64 (m * 2 ^ k) (e - k) .exact =
      (⟨m, false, false⟩, e) := by
  rw [UnpackedFloat.shiftToTargetExponent, targetExponent_of_fits hf hm k,
    UnpackedFloat.shiftToExponent]
  have hshift : (e - (e - k)).toNat = k := by omega
  rw [hshift]
  refine Prod.ext ?_ ?_
  · exact repeat_shiftRightOne m k
  · exact Int.sub_add_cancel e k

/-- **What is a double already is left as it is.** -/
theorem roundWithAccuracy_exact (hf : Fits m e) (hm : 0 < m) (k : Nat) (s : Sign) :
    UnpackedFloat.roundWithAccuracy Format.binary64 s (m * 2 ^ k) (e - k) .exact =
      .finite s m e hm := by
  have hzero := shiftToTargetExponent_exact hf hm 0
  rw [Nat.pow_zero, Nat.mul_one, Int.natCast_zero, Int.sub_zero] at hzero
  unfold UnpackedFloat.roundWithAccuracy
  rw [shiftToTargetExponent_exact hf hm k]
  dsimp only
  have hrounded : (⟨m, false, false⟩ : ExtendedMantissa).roundedMantissa = m := rfl
  rw [hrounded, hzero]
  exact dif_neg hm.ne'

section Packed

open Float.Model.UnpackedFloat

/-- Bits of a normal double: the first bit of the mantissa is not written. -/
theorem unpack_normal (hf : Fits m e) (hm : 0 < m) (hnormal : 2 ^ 52 ≤ m) :
    unpack Format.binary64 (packComponents Format.binary64 s (BitVec.ofNat 11 (e + 1075).toNat)
      (BitVec.ofNat 52 m)) = .finite s m e hm := by
  have hleast : leastExponent = -1074 := rfl
  obtain ⟨hlt, -, hge, hle⟩ := hf
  have hexponent : (BitVec.ofNat 11 (e + 1075).toNat).toNat = (e + 1075).toNat := by
    rw [BitVec.toNat_ofNat]
    exact Nat.mod_eq_of_lt (by omega)
  have hne : BitVec.ofNat 11 (e + 1075).toNat ≠ -1#11 := fun h => by
    have hall : (-1#11 : BitVec 11).toNat = 2 ^ 11 - 1 := by decide
    have := congrArg BitVec.toNat h
    omega
  have hne' : BitVec.ofNat 11 (e + 1075).toNat ≠ 0#11 := fun h => by
    have hnone : (0#11 : BitVec 11).toNat = 0 := rfl
    have := congrArg BitVec.toNat h
    omega
  have hmantissa : (1#1 ++ BitVec.ofNat 52 m).toNat = m := by
    rw [toNat_one_append, BitVec.toNat_ofNat]
    omega
  simp only [unpack, unpackMantissa_packComponents, unpackExponent_packComponents,
    unpackSign_packComponents, Sign.ofBitVec_toBitVec]
  rw [if_neg hne, if_neg hne', UnpackedFloat.finite.injEq]
  refine ⟨rfl, hmantissa, ?_⟩
  rw [hexponent, show Format.binary64.exponentBias = 1023 from rfl]
  omega

/-- Bits of a double that is too small to be normal: all of the mantissa is written. -/
theorem unpack_subnormal (hm : 0 < m) (hsmall : m < 2 ^ 52) :
    unpack Format.binary64 (packComponents Format.binary64 s 0#11 (BitVec.ofNat 52 m)) =
      .finite s m leastExponent hm := by
  have hmantissa : (BitVec.ofNat 52 m).toNat = m := by
    rw [BitVec.toNat_ofNat]
    exact Nat.mod_eq_of_lt hsmall
  have hne : BitVec.ofNat 52 m ≠ 0#52 := fun h => by
    have hnone : (0#52 : BitVec 52).toNat = 0 := rfl
    have := congrArg BitVec.toNat h
    omega
  simp only [unpack, unpackMantissa_packComponents, unpackExponent_packComponents,
    unpackSign_packComponents, Sign.ofBitVec_toBitVec]
  rw [if_neg (by decide), if_true, dif_neg hne, UnpackedFloat.finite.injEq]
  exact ⟨rfl, hmantissa, rfl⟩

/-- What is packed into the bits of a double is unpacked again. -/
theorem unpack_pack (hf : Fits m e) (hm : 0 < m) :
    (Float.Model.pack (.finite s m e hm)).unpack = .finite s m e hm := by
  have hpack : (Float.Model.pack (.finite s m e hm)).unpack =
      unpack Format.binary64 (pack Format.binary64 (.finite s m e hm)) := rfl
  have hleast : leastExponent = -1074 := rfl
  have hbits : Format.binary64.mantissaBits = 53 := rfl
  have hge := hf.least_le
  have hbiased : (e + Format.binary64.exponentBias +
      Format.binary64.mantissaBitsWithoutImplicit).toNat = (e + 1075).toNat := by
    rw [show Format.binary64.exponentBias = 1023 from rfl,
      show Format.binary64.mantissaBitsWithoutImplicit = 52 from rfl]
    omega
  have hbound : ¬ 2 ^ Format.binary64.exponentBits ≤ (e + 1075).toNat + 1 := by
    rw [show Format.binary64.exponentBits = 11 from rfl]
    have := hf.le
    omega
  rw [hpack, pack]
  simp only [hbiased, if_neg hbound]
  split
  · next hlog =>
    exact unpack_normal hf hm ((Nat.log2_eq_iff hm.ne').mp (by omega : m.log2 = 52)).1
  · next hlog =>
    have hsmall : m < 2 ^ 52 := by
      by_contra hnormal
      exact hlog (by rw [log2_eq_of_normal hf.lt (by omega), hbits])
    obtain rfl : e = leastExponent := hf.normal.resolve_left (by omega)
    exact unpack_subnormal hm hsmall

end Packed

/-- A natural number below `2 ^ 53` is rounded to itself. -/
theorem round_natural {n : Nat} (hpos : 0 < n) (hlt : n < 2 ^ 53) :
    ∃ m e hm, Fits m e ∧ UnpackedFloat.ofNat Format.binary64 n = .finite .positive m e hm ∧
      (m : ℚ) * 2 ^ e = n := by
  have hlog : n.log2 < 53 := (Nat.log2_lt hpos.ne').mpr hlt
  have hbounds := (Nat.log2_eq_iff hpos.ne').mp rfl
  have hpow : 2 ^ 52 = 2 ^ n.log2 * 2 ^ (52 - n.log2) := by
    rw [← Nat.pow_add]
    congr 1
    omega
  have hfits : Fits (n * 2 ^ (52 - n.log2)) (n.log2 - 52) := by
    have hleast : leastExponent = -1074 := rfl
    refine ⟨?_, .inl ?_, by omega, by omega⟩
    · rw [show 2 ^ 53 = 2 ^ n.log2 * 2 ^ (52 - n.log2) * 2 from hpow ▸ rfl, Nat.mul_right_comm,
        ← Nat.pow_succ]
      exact Nat.mul_lt_mul_of_pos_right hbounds.2 (by positivity)
    · rw [hpow]
      exact Nat.mul_le_mul_right _ hbounds.1
  have hmantissa : 0 < n * 2 ^ (52 - n.log2) := by positivity
  refine ⟨_, _, hmantissa, hfits, ?_, ?_⟩
  · have hcompare : compare (n : Int) 0 = .gt := by
      rw [compare_gt_iff_gt]
      exact_mod_cast hpos
    have htarget :
        Format.binary64.targetExponent (Float.Model.totalExponent n 0) = n.log2 - 52 := by
      rw [Format.targetExponent, Float.Model.totalExponent,
        show Format.binary64.minExponent = -1074 from rfl,
        show Format.binary64.mantissaBits = 53 from rfl]
      push_cast
      omega
    rw [UnpackedFloat.ofNat, UnpackedFloat.ofInt, UnpackedFloat.normalize, hcompare]
    simp only [UnpackedFloat.round, htarget, UnpackedFloat.decreaseExponent, Int.toNat_natCast]
    have hshift : (0 - ((n.log2 : Int) - 52)).toNat = 52 - n.log2 := by omega
    have hexact := roundWithAccuracy_exact hfits hmantissa 0 .positive
    rw [hshift, Nat.shiftLeft_eq]
    rw [Nat.pow_zero, Nat.mul_one, Int.natCast_zero, Int.sub_zero] at hexact
    rw [← hexact]
    congr 1
    omega
  · have hexp : ((n.log2 : Int) - 52) = -((52 - n.log2 : Nat) : Int) := by omega
    rw [hexp, zpow_neg, zpow_natCast]
    push_cast
    field_simp

/-- **Natural numbers are doubles.** What is read for the digits of a natural number below `2 ^ 53`
stands for that number. -/
theorem value?_nearest {n : Nat} (hlt : n < 2 ^ 53) :
    (ofFloat (nearest n 0)).value? = some (n : ℚ) := by
  rcases Nat.eq_zero_or_pos n with rfl | hpos
  · have hzero : ofFloat (nearest 0 0) = .finite false 0 leastExponent := by decide +kernel
    rw [hzero]
    simp [value?]
  have hcount : digitCount n ≤ 16 :=
    (Nat.length_toDigits_le_iff (by decide) (by decide)).mpr (by omega)
  have hnearest : nearest n 0 = n.toUInt64.toFloat * Float.exactlyRepresentablePowersOfTen[0] := by
    unfold nearest
    simp only [Int.ofNat_eq_natCast, zero_add]
    rw [if_neg hpos.ne', if_neg (by omega), if_neg (by omega)]
    exact dif_pos ⟨hlt, by decide⟩
  obtain ⟨m, e, hm, hfits, hround, hvalue⟩ := round_natural hpos hlt
  have htoNat : n.toUInt64.toNat = n := by
    rw [Nat.toUInt64_eq, UInt64.toNat_ofNat']
    exact Nat.mod_eq_of_lt (by omega)
  have hleft : n.toUInt64.toFloat.toModel.unpack = .finite .positive m e hm := by
    have hpack : n.toUInt64.toFloat.toModel =
        Float.Model.pack (UnpackedFloat.ofNat Format.binary64 n.toUInt64.toNat) := rfl
    rw [hpack, htoNat, hround, unpack_pack hfits hm]
  have hright : (Float.exactlyRepresentablePowersOfTen[0]).toModel.unpack =
      .finite .positive (2 ^ 52) (-52) (by decide) := rfl
  -- the product with one is rounded from a mantissa with 52 zeros behind its bits
  have hproduct : (nearest n 0).toModel.unpack = .finite .positive m e hm := by
    have hpack : (n.toUInt64.toFloat * Float.exactlyRepresentablePowersOfTen[0]).toModel =
        Float.Model.pack (UnpackedFloat.mul Format.binary64 n.toUInt64.toFloat.toModel.unpack
          (Float.exactlyRepresentablePowersOfTen[0]).toModel.unpack) := rfl
    have hmul : UnpackedFloat.mul Format.binary64 (.finite .positive m e hm)
        (.finite .positive (2 ^ 52) (-52) (by decide)) = .finite .positive m e hm :=
      roundWithAccuracy_exact hfits hm 52 .positive
    rw [hnearest, hpack, hleft, hright, hmul, unpack_pack hfits hm]
  rw [ofFloat_eq, hproduct]
  simp [ofUnpacked, value?, hvalue]

/-! ### Signs -/

/-- A sign that is not that of a negative number. What is no number has none. -/
def nonnegative : UnpackedFloat → Bool
  | .infinity s => s == .positive
  | .notANumber => true
  | .zero s => s == .positive
  | .finite s _ _ _ => s == .positive

@[simp] theorem nonnegative_infinity (s : Sign) :
    nonnegative (.infinity s) = (s == .positive) := rfl

@[simp] theorem nonnegative_notANumber : nonnegative .notANumber = true := rfl

@[simp] theorem nonnegative_zero (s : Sign) : nonnegative (.zero s) = (s == .positive) := rfl

@[simp] theorem nonnegative_finite (s : Sign) (m : Nat) (e : Int) (hm : 0 < m) :
    nonnegative (.finite s m e hm) = (s == .positive) := rfl

theorem nonnegative_unpack_pack {u : UnpackedFloat} (h : nonnegative u = true) :
    nonnegative (Float.Model.pack u).unpack = true := by
  open Float.Model.UnpackedFloat in
  have hunpack : ∀ exponent mantissa, nonnegative
      (unpack Format.binary64 (packComponents Format.binary64 .positive exponent mantissa)) =
        true := by
    intro exponent mantissa
    have hsign : Sign.ofBitVec
        (unpackSign (packComponents Format.binary64 .positive exponent mantissa)) = .positive := by
      rw [unpackSign_packComponents, Sign.ofBitVec_toBitVec]
    fun_cases unpack with
    | case2 => rfl
    | _ => exact beq_iff_eq.mpr hsign
  have hpack : (Float.Model.pack u).unpack = unpack Format.binary64 (pack Format.binary64 u) := rfl
  rw [hpack]
  match u, h with
  | .infinity .positive, _ => exact hunpack _ _
  | .notANumber, _ => exact hunpack _ _
  | .zero .positive, _ => exact hunpack _ _
  | .finite .positive m e _, _ =>
    unfold pack
    dsimp only
    split
    · exact hunpack _ _
    · split
      · exact hunpack _ _
      · exact hunpack _ _

theorem nonnegative_roundWithAccuracy (m : Nat) (e : Int) (accuracy : Accuracy) :
    nonnegative (UnpackedFloat.roundWithAccuracy Format.binary64 .positive m e accuracy) =
      true := by
  unfold UnpackedFloat.roundWithAccuracy
  dsimp only
  split <;> rfl

theorem mul_positive : (.positive * .positive : Sign) = .positive := rfl

theorem div_positive : (.positive / .positive : Sign) = .positive := rfl

theorem nonnegative_mul {u v : UnpackedFloat} (hu : nonnegative u = true)
    (hv : nonnegative v = true) : nonnegative (UnpackedFloat.mul Format.binary64 u v) = true := by
  fun_cases UnpackedFloat.mul Format.binary64 u v <;>
    simp_all [mul_positive, nonnegative_roundWithAccuracy]

theorem nonnegative_div {u v : UnpackedFloat} (hu : nonnegative u = true)
    (hv : nonnegative v = true) : nonnegative (UnpackedFloat.div Format.binary64 u v) = true := by
  fun_cases UnpackedFloat.div Format.binary64 u v <;>
    simp_all [div_positive, nonnegative_roundWithAccuracy]

theorem nonnegative_powersOfTen :
    ∀ x ∈ Float.exactlyRepresentablePowersOfTen, nonnegative x.toModel.unpack = true := by
  decide +kernel

theorem nonnegative_ofNat (n : Nat) :
    nonnegative (UnpackedFloat.ofNat Format.binary64 n) = true := by
  rcases Nat.eq_zero_or_pos n with rfl | hpos
  · rfl
  · have hcompare : compare (n : Int) 0 = .gt := by
      rw [compare_gt_iff_gt]
      exact_mod_cast hpos
    rw [UnpackedFloat.ofNat, UnpackedFloat.ofInt, UnpackedFloat.normalize, hcompare]
    exact nonnegative_roundWithAccuracy _ _ _

theorem nonnegative_ofScientific (m : Nat) (s : Bool) (e : Nat) :
    nonnegative (Float.ofScientific m s e).toModel.unpack = true := by
  unfold Float.ofScientific
  split
  · next h =>
    have hleft := nonnegative_unpack_pack (nonnegative_ofNat m.toUInt64.toNat)
    have hsize : e < Float.exactlyRepresentablePowersOfTen.size := Nat.lt_succ_of_le h.2
    have hright := nonnegative_powersOfTen _ (Array.getElem_mem hsize)
    cases s with
    | true => exact nonnegative_unpack_pack (nonnegative_div hleft hright)
    | false => exact nonnegative_unpack_pack (nonnegative_mul hleft hright)
  · refine nonnegative_unpack_pack ?_
    generalize (if s = true then Int.negOfNat e else Int.ofNat e) = k
    unfold UnpackedFloat.ofScientific
    split
    · rfl
    · split
      · rfl
      · split
        · rfl
        · split
          · exact nonnegative_mul rfl rfl
          · exact nonnegative_div rfl rfl

/-- A decimal without a sign is read as a number that is not negative. -/
theorem nonnegative_nearest (c : Nat) (e : Int) :
    nonnegative (nearest c e).toModel.unpack = true := by
  unfold nearest
  dsimp only
  split
  · decide +kernel
  · split
    · decide +kernel
    · split
      · decide +kernel
      · exact nonnegative_ofScientific _ _ _

/-- **Equal numbers without a sign are the same**, as a negative zero is not among them. -/
theorem nearest_eq_of_beq {c c' : Nat} {k k' : Int} (h : (nearest c k == nearest c' k') = true) :
    nearest c k = nearest c' k' := by
  have hx := nonnegative_nearest c k
  have hy := nonnegative_nearest c' k'
  generalize nearest c k = x at h hx
  generalize nearest c' k' = y at h hy
  have hbeq : x.toModel.unpack.beq y.toModel.unpack = true := h
  obtain ⟨-, -, hsame | ⟨-, hzero⟩ | ⟨hzero, -⟩⟩ :=
    (UnpackedFloat.beq_iff_ne_notANumber_and_eq _ _).mp hbeq
  · have hbits := (UnpackedFloat.unpack_inj_of_valid x.toModel.valid y.toModel.valid).mp hsame
    exact Float.toBits_inj.mp (UInt64.toBitVec_inj.mp hbits)
  · rw [hzero] at hy
    cases hy
  · rw [hzero] at hx
    cases hx

end Binary

end Decimal

end Roteiro
