import Roteiro.Proofs.Decimal.Rounding
import Roteiro.Proofs.Decimal.Text

/-!
# Numbers without a sign

A number in a source has no sign. If it is finite it is written as a numeral, and two of them that
are written alike are the same, as a negative zero is not among them.

* `unsigned_of_read?`: a numeral is read as a number without a sign.
* `Unsigned.isNumeral_display`: it is written as a numeral.
* `display_injOn`: its text tells which number it is.
-/

namespace Roteiro

namespace Decimal

open Binary

/-- A number that is read from digits without a sign. -/
def Unsigned (x : Float) : Prop := ∃ c k, x = nearest c k

/-- **A numeral is read as a number without a sign.** -/
theorem unsigned_of_read? {cs : List Char} {x : Float} (hcs : IsNumeral cs)
    (h : read? cs = some x) : Unsigned x := by
  cases hcs with
  | whole hne hcs =>
    rw [read?_whole hne hcs] at h
    exact ⟨_, _, (Option.some.inj h).symm⟩
  | fraction hne hcs _ hds =>
    rw [read?_fraction hne hcs hds] at h
    exact ⟨_, _, (Option.some.inj h).symm⟩

variable {x y : Float}

/-- The parts of a finite number without a sign. -/
theorem Unsigned.exists_finite (h : Unsigned x) (hfinite : x.isFinite = true) :
    ∃ m e, ofFloat x = .finite false m e := by
  obtain ⟨c, k, rfl⟩ := h
  have hnonnegative := nonnegative_nearest c k
  have hunpacked : (nearest c k).toModel.unpack.isFinite = true := hfinite
  rw [ofFloat_eq]
  match hu : (nearest c k).toModel.unpack with
  | .infinity _ | .notANumber =>
    rw [hu] at hunpacked
    cases hunpacked
  | .zero s =>
    rw [hu, nonnegative_zero, beq_iff_eq] at hnonnegative
    exact ⟨_, _, by rw [hnonnegative]; rfl⟩
  | .finite s m e hm =>
    rw [hu, nonnegative_finite, beq_iff_eq] at hnonnegative
    exact ⟨m, e, by rw [hnonnegative]; rfl⟩

/-- **A finite number without a sign is written as a numeral.** -/
theorem Unsigned.isNumeral_display (h : Unsigned x) (hfinite : x.isFinite = true) :
    IsNumeral (display x).toList := by
  obtain ⟨m, e, hparts⟩ := h.exists_finite hfinite
  obtain ⟨body, hnumeral, -, htext⟩ := toList_display hparts
  rw [withMinus, if_neg (by simp)] at htext
  rwa [htext]

/-- **The text of a finite number without a sign tells which one it is.** -/
theorem display_injOn : Set.InjOn display {x | Unsigned x ∧ x.isFinite = true} := by
  rintro x ⟨hx, hxfinite⟩ y ⟨hy, hyfinite⟩ h
  have hne : ∀ {z : Float}, Unsigned z → z.isFinite = true → ofFloat z ≠ .notANumber := by
    intro z hz hfinite
    obtain ⟨m, e, hparts⟩ := hz.exists_finite hfinite
    rw [hparts]
    exact Binary.noConfusion
  have hbeq := (display_eq_iff (hne hx hxfinite) (hne hy hyfinite)).mp h
  obtain ⟨c, k, rfl⟩ := hx
  obtain ⟨c', k', rfl⟩ := hy
  exact nearest_eq_of_beq hbeq

end Decimal

end Roteiro
