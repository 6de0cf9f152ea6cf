import Roteiro.Proofs.Decimal.Shortest
import Roteiro.Proofs.Token.Spacing
import Roteiro.Proofs.Value.Table

/-!
# The texts of numbers

What is written for a finite double is a numeral, with a sign in front if the double is negative and
no zero (`toList_display`). The numeral stands for a number to which the double is the nearest one,
whether it is written as an integer or by its shortest digits. So the text tells which double it
was, up to the sign of a zero, and it is read as a number again.

* `display_eq_iff`: two doubles have the same text just if they are equal.
* `display_of_natural`: the text of a natural number below `2 ^ 53` is that of the number.
* `exists_readTrimmed?_display`: the text of a double is the text of a number.
-/

namespace Roteiro

namespace Decimal

open Binary

/-! ### Numerals and what they stand for -/

/-- The number that a numeral stands for. -/
def textValue (cs : List Char) : ℚ :=
  let fraction := (cs.dropWhile Char.isDigit).drop 1
  digitsValue (digitsValue 0 (cs.takeWhile Char.isDigit)) fraction / 10 ^ fraction.length

section Digits

variable {cs ds : List Char}

theorem digitsValue_append (start : Nat) (cs ds : List Char) :
    digitsValue start (cs ++ ds) = digitsValue (digitsValue start cs) ds :=
  List.foldl_append

@[simp] theorem digitsValue_zeros (start n : Nat) :
    digitsValue start (zeros n) = start * 10 ^ n := by
  induction n generalizing start with
  | zero => simp [zeros, digitsValue]
  | succ n ih =>
    have hcons : digitsValue start (zeros (n + 1)) = digitsValue (start * 10) (zeros n) := rfl
    rw [hcons, ih, Nat.pow_succ]
    ring

theorem isDigit_of_mem_digitsOf {n : Nat} : ∀ c ∈ digitsOf n, c.isDigit = true :=
  fun _ hc => Nat.isDigit_of_mem_toDigits (by decide) (by decide) hc

theorem isDigit_of_mem_zeros {n : Nat} : ∀ c ∈ zeros n, c.isDigit = true := by
  intro c hc
  rw [List.eq_of_mem_replicate hc]
  decide

theorem textValue_whole (hcs : ∀ c ∈ cs, c.isDigit = true) : textValue cs = digitsValue 0 cs := by
  rw [textValue, List.takeWhile_eq_self_iff.mpr hcs, List.dropWhile_eq_nil_iff.mpr hcs]
  simp [digitsValue]

theorem textValue_fraction (hcs : ∀ c ∈ cs, c.isDigit = true) :
    textValue (cs ++ '.' :: ds) = digitsValue (digitsValue 0 cs) ds / 10 ^ ds.length := by
  have hpoint : ∀ x ∈ ('.' :: ds).head?, x.isDigit = false := by
    rintro x ⟨⟩
    decide
  have hcut := Token.takeWhile_stop Char.isDigit cs hpoint
  rw [List.takeWhile_eq_self_iff.mpr hcs] at hcut
  rw [textValue, hcut.1, hcut.2]
  rfl

/-- A number with zeros behind its digits. -/
theorem digitsOf_mul_pow {c : Nat} (hc : 0 < c) (k : Nat) :
    digitsOf (c * 10 ^ k) = digitsOf c ++ zeros k := by
  have hvalue : digitsValue 0 (digitsOf c ++ zeros k) = c * 10 ^ k := by
    rw [digitsValue_append, digitsValue_digitsOf, digitsValue_zeros]
  have hne : digitsOf c ≠ [] := Nat.toDigits_ne_nil
  have hhead : (digitsOf c ++ zeros k).head? ≠ some '0' := by
    rw [List.head?_append, List.head?_eq_some_head hne, Option.some_or,
      ← List.head?_eq_some_head hne]
    exact head?_digitsOf_ne hc
  rw [← hvalue]
  refine (digitsOf_digitsValue ?_ ?_ hhead).1
  · exact List.append_ne_nil_of_left_ne_nil hne _
  · exact List.forall_mem_append.mpr ⟨isDigit_of_mem_digitsOf, isDigit_of_mem_zeros⟩

/-- **Positional text** is a numeral that stands for its decimal. -/
theorem positional_spec (d : Digits) :
    IsNumeral d.positional ∧ textValue d.positional = d.value := by
  obtain ⟨c, exponent⟩ := d
  have hne : digitsOf c ≠ [] := Nat.toDigits_ne_nil
  match exponent with
  | .ofNat k =>
    have hall := List.forall_mem_append.mpr
      ⟨isDigit_of_mem_digitsOf (n := c), isDigit_of_mem_zeros (n := k)⟩
    refine ⟨.whole (List.append_ne_nil_of_left_ne_nil hne _) hall, ?_⟩
    simp only [Digits.positional]
    rw [textValue_whole hall, digitsValue_append, digitsValue_digitsOf, digitsValue_zeros,
      Digits.value, Int.ofNat_eq_natCast, zpow_natCast]
    push_cast
    rfl
  | .negSucc k =>
    have hvalue : (⟨c, .negSucc k⟩ : Digits).value = c / 10 ^ (k + 1) := by
      rw [Digits.value, zpow_negSucc, div_eq_mul_inv]
    rw [hvalue, Digits.positional]
    dsimp only
    split
    · next hplaces =>
      -- the point stands among the digits
      have hsplit := List.take_append_drop ((digitsOf c).length - (k + 1)) (digitsOf c)
      have hlength : ((digitsOf c).drop ((digitsOf c).length - (k + 1))).length = k + 1 := by
        rw [List.length_drop]
        omega
      generalize (digitsOf c).drop _ = back at hsplit hlength ⊢
      have hfront : (digitsOf c).take ((digitsOf c).length - (k + 1)) ≠ [] := by
        rw [ne_eq, List.take_eq_nil_iff]
        exact not_or.mpr ⟨by omega, hne⟩
      generalize (digitsOf c).take _ = front at hsplit hfront ⊢
      have hdigits : ∀ d ∈ front ++ back, d.isDigit = true := hsplit ▸ isDigit_of_mem_digitsOf
      obtain ⟨hdigits, hdigits'⟩ := List.forall_mem_append.mp hdigits
      refine ⟨.fraction hfront hdigits ?_ hdigits', ?_⟩
      · exact List.ne_nil_of_length_pos (by omega)
      · rw [textValue_fraction hdigits, ← digitsValue_append, hsplit, digitsValue_digitsOf, hlength]
    · next hplaces =>
      -- zeros fill the places between the point and the digits
      generalize hfill : k + 1 - (digitsOf c).length = fill
      have hall := List.forall_mem_append.mpr
        ⟨isDigit_of_mem_zeros (n := fill), isDigit_of_mem_digitsOf (n := c)⟩
      have hzero : ∀ d ∈ ['0'], d.isDigit = true := by
        intro d hd
        rw [List.mem_singleton.mp hd]
        decide
      refine ⟨IsNumeral.fraction (List.cons_ne_nil '0' []) hzero
        (List.append_ne_nil_of_right_ne_nil _ hne) hall, ?_⟩
      have hlength : (zeros fill ++ digitsOf c).length = k + 1 := by
        rw [List.length_append, zeros, List.length_replicate]
        omega
      have hback : digitsValue (digitsValue 0 ['0']) (zeros fill ++ digitsOf c) = c := by
        rw [digitsValue_append, digitsValue_zeros, show digitsValue 0 ['0'] = 0 from rfl,
          Nat.zero_mul, digitsValue_digitsOf]
      have htext := @textValue_fraction _ (zeros fill ++ digitsOf c) hzero
      rw [hback, hlength] at htext
      exact htext

/-- A numeral begins with a digit. -/
theorem IsNumeral.exists_cons (h : IsNumeral cs) : ∃ c ds, cs = c :: ds ∧ c.isDigit = true := by
  cases h with
  | whole hne hcs =>
    obtain ⟨c, ds, rfl⟩ := List.exists_cons_of_ne_nil hne
    exact ⟨c, ds, rfl, hcs c List.mem_cons_self⟩
  | fraction hne hcs _ _ =>
    obtain ⟨c, es, rfl⟩ := List.exists_cons_of_ne_nil hne
    exact ⟨c, _, rfl, hcs c List.mem_cons_self⟩

/-- A numeral is made of digits and a point. -/
theorem IsNumeral.mem (h : IsNumeral cs) : ∀ c ∈ cs, c.isDigit = true ∨ c = '.' := by
  cases h with
  | whole _ hcs => exact fun c hc => .inl (hcs c hc)
  | fraction _ hcs _ hds =>
    intro c hc
    rcases List.mem_append.mp hc with hc | hc
    · exact .inl (hcs c hc)
    · rcases List.mem_cons.mp hc with rfl | hc
      · exact .inr rfl
      · exact .inl (hds c hc)

end Digits

/-! ### What is written for a double -/

/-- The text with a sign in front if it is that of a negative number. -/
def withMinus (negative : Prop) [Decidable negative] (cs : List Char) : List Char :=
  if negative then '-' :: cs else cs

variable {x y : Float}

/-- What is written for parts. -/
theorem display_eq (x : Float) : display x =
    match shownInteger? (ofFloat x) with
    | some n => integerText n
    | none => positionalText (ofFloat x) := rfl

theorem display_congr (h : ofFloat x = ofFloat y) : display x = display y := by
  rw [display_eq, display_eq, h]

theorem shownInteger?_zero (negative : Bool) (e : Int) :
    shownInteger? (.finite negative 0 e) = some 0 := by
  have hzero : toInt? (.finite negative 0 e) = some 0 := by
    rw [toInt?_eq_some_iff]
    simp [value?]
  rw [shownInteger?, hzero]
  decide

theorem display_of_isZero (h : IsZero (ofFloat x)) : display x = "0" := by
  obtain ⟨negative, h⟩ := h
  rw [display_eq, h, shownInteger?_zero]
  rfl

/-- What is written for an integer: the digits of its magnitude, behind a sign if it is negative. -/
theorem toList_integerText {negative : Bool} {m : Nat} {e n : Int}
    (h : toInt? (.finite negative m e) = some n) :
    ∃ k : Nat, (m : ℚ) * 2 ^ e = k ∧
      (integerText n).toList = withMinus (negative = true ∧ m ≠ 0) (digitsOf k) := by
  have hvalue := Option.some.inj (toInt?_eq_some_iff.mp h)
  have hnonneg : (0 : ℚ) ≤ m * 2 ^ e := by positivity
  match n with
  | .ofNat k =>
    have hk : (m : ℚ) * 2 ^ e = k ∧ ¬ (negative = true ∧ m ≠ 0) := by
      cases negative with
      | false => exact ⟨by simpa using hvalue, by simp⟩
      | true =>
        have hneg : -((m : ℚ) * 2 ^ e) = k := by simpa using hvalue
        have hk : (0 : ℚ) ≤ k := Nat.cast_nonneg k
        refine ⟨by linarith, fun hm => ?_⟩
        have hpos : (0 : ℚ) < m * 2 ^ e := by
          have := Nat.pos_of_ne_zero hm.2
          positivity
        linarith
    refine ⟨k, hk.1, ?_⟩
    rw [withMinus, if_neg hk.2]
    exact String.toList_ofList
  | .negSucc k =>
    rw [Int.cast_negSucc] at hvalue
    have hkpos : (0 : ℚ) < (k + 1 : Nat) := by positivity
    have hk : (m : ℚ) * 2 ^ e = (k + 1 : Nat) ∧ negative = true := by
      cases negative with
      | false =>
        have : (m : ℚ) * 2 ^ e = -((k + 1 : Nat) : ℚ) := by simpa using hvalue
        linarith
      | true => exact ⟨neg_injective (by simpa using hvalue), rfl⟩
    have hm : m ≠ 0 := by
      rintro rfl
      rw [Nat.cast_zero, zero_mul] at hk
      linarith [hk.1]
    refine ⟨k + 1, hk.1, ?_⟩
    rw [withMinus, if_pos ⟨hk.2, hm⟩]
    exact String.toList_ofList

theorem toList_positionalText (negative : Bool) (m : Nat) (e : Int) :
    (positionalText (.finite negative m e)).toList =
      withMinus (negative = true) (Digits.shortest .up m e).positional := by
  rw [withMinus]
  cases negative with
  | false =>
    rw [if_neg (by simp)]
    exact String.toList_ofList
  | true =>
    rw [if_pos rfl]
    exact String.toList_ofList

/-- **What is written for a finite double**: a numeral to which it is the nearest double, behind a
sign if it is negative and no zero. -/
theorem toList_display {negative : Bool} {m : Nat} {e : Int}
    (h : ofFloat x = .finite negative m e) :
    ∃ body, IsNumeral body ∧ IsNearest m e (textValue body) ∧
      (display x).toList = withMinus (negative = true ∧ m ≠ 0) body := by
  rw [display_eq, h]
  cases hshown : shownInteger? (.finite negative m e) with
  | some n =>
    obtain ⟨k, hk, htext⟩ := toList_integerText (Option.filter_eq_some_iff.mp hshown).1
    refine ⟨digitsOf k, .whole Nat.toDigits_ne_nil isDigit_of_mem_digitsOf, ?_, htext⟩
    rw [textValue_whole isDigit_of_mem_digitsOf, digitsValue_digitsOf, ← hk]
    exact isNearest_self m e
  | none =>
    have hm : m ≠ 0 := by
      rintro rfl
      rw [shownInteger?_zero] at hshown
      cases hshown
    obtain ⟨hnumeral, hvalue⟩ := positional_spec (Digits.shortest .up m e)
    refine ⟨_, hnumeral, ?_, ?_⟩
    · rw [hvalue]
      exact Digits.shortest_isNearest .up (fits_ofFloat h)
    · simpa [hm] using toList_positionalText negative m e

theorem toList_display_infinite {negative : Bool} (h : ofFloat x = .infinite negative) :
    (display x).toList = withMinus (negative = true) ['i', 'n', 'f'] := by
  rw [display_eq, h]
  cases negative <;> decide

theorem display_notANumber (h : ofFloat x = .notANumber) : display x = "NaN" := by
  rw [display_eq, h]
  decide

/-- A sign is not among the first characters of numbers without one. -/
theorem withMinus_inj {p q : Prop} [Decidable p] [Decidable q] {cs ds : List Char}
    (hcs : cs.head? ≠ some '-') (hds : ds.head? ≠ some '-') (h : withMinus p cs = withMinus q ds) :
    (p ↔ q) ∧ cs = ds := by
  unfold withMinus at h
  split at h <;> split at h <;> next hp hq =>
    first
    | exact ⟨iff_of_true hp hq, (List.cons.inj h).2⟩
    | exact ⟨iff_of_false hp hq, h⟩
    | (subst h; exact absurd rfl (by assumption))

theorem IsNumeral.head?_ne {cs : List Char} (h : IsNumeral cs) : cs.head? ≠ some '-' := by
  obtain ⟨c, ds, rfl, hc⟩ := h.exists_cons
  rintro ⟨⟩
  cases hc

/-- No numeral is a word. -/
theorem IsNumeral.ne_inf {cs : List Char} (h : IsNumeral cs) : cs ≠ ['i', 'n', 'f'] := by
  rintro rfl
  exact absurd (h.mem 'i' List.mem_cons_self) (by decide)

/-- **The text tells which double it was**, up to the sign of a zero. -/
theorem display_eq_iff (hx : ofFloat x ≠ .notANumber) (hy : ofFloat y ≠ .notANumber) :
    display x = display y ↔ (x == y) = true := by
  constructor
  · intro h
    have hlist : (display x).toList = (display y).toList := by rw [h]
    rw [beq_iff]
    refine ⟨hx, hy, ?_⟩
    match hbx : ofFloat x, hby : ofFloat y with
    | .notANumber, _ => exact absurd hbx hx
    | _, .notANumber => exact absurd hby hy
    | .infinite negative, .infinite negative' =>
      rw [toList_display_infinite hbx, toList_display_infinite hby] at hlist
      have hsign := (withMinus_inj (by decide) (by decide) hlist).1
      rw [Bool.eq_iff_iff.mpr hsign]
      exact .inl rfl
    | .finite negative m e, .infinite negative' =>
      obtain ⟨body, hnumeral, -, htext⟩ := toList_display hbx
      rw [htext, toList_display_infinite hby] at hlist
      exact absurd (withMinus_inj hnumeral.head?_ne (by decide) hlist).2 hnumeral.ne_inf
    | .infinite negative, .finite negative' m e =>
      obtain ⟨body, hnumeral, -, htext⟩ := toList_display hby
      rw [htext, toList_display_infinite hbx] at hlist
      exact absurd (withMinus_inj (by decide) hnumeral.head?_ne hlist).2.symm hnumeral.ne_inf
    | .finite negative m e, .finite negative' m' e' =>
      obtain ⟨body, hnumeral, hnearest, htext⟩ := toList_display hbx
      obtain ⟨body', hnumeral', hnearest', htext'⟩ := toList_display hby
      rw [htext, htext'] at hlist
      obtain ⟨hsign, rfl⟩ := withMinus_inj hnumeral.head?_ne hnumeral'.head?_ne hlist
      obtain ⟨rfl, rfl⟩ := hnearest.unique (fits_ofFloat hbx) (fits_ofFloat hby) hnearest'
      by_cases hm : m = 0
      · have hleast : e = leastExponent := (fits_ofFloat hbx).normal.resolve_left (by omega)
        exact .inr ⟨⟨negative, by rw [hm, hleast]⟩, ⟨negative', by rw [hm, hleast]⟩⟩
      · have hsame : negative = negative' := by
          rw [Bool.eq_iff_iff]
          simpa [hm] using hsign
        exact .inl (by rw [hsame])
  · intro h
    obtain ⟨-, -, h | ⟨hzero, hzero'⟩⟩ := beq_iff.mp h
    · exact display_congr h
    · rw [display_of_isZero hzero, display_of_isZero hzero']

/-- **The text of a natural number below `2 ^ 53`** is that of the number. -/
theorem display_of_natural {i : Nat} (hlt : i < 2 ^ 53) (h : (ofFloat x).value? = some (i : ℚ)) :
    display x = naturalText i := by
  have hint : (ofFloat x).toInt? = some (i : Int) := toInt?_eq_some_iff.mpr (by simpa using h)
  rw [display_eq, shownInteger?, hint]
  by_cases hsmall : i < integerBound.natAbs
  · rw [Option.filter_some_pos (by simpa using hsmall)]
    rfl
  · rw [Option.filter_some_neg (by simpa using hsmall)]
    dsimp only
    cases hb : ofFloat x with
    | infinite | notANumber =>
      rw [hb] at h
      cases h
    | finite negative m e =>
    rw [hb] at h
    have hvalue := Option.some.inj h
    have hpos : (0 : ℚ) < i := by
      have hbound : 0 < integerBound.natAbs := by decide
      exact_mod_cast (by omega : 0 < i)
    have hnonneg : (0 : ℚ) ≤ m * 2 ^ e := by positivity
    cases negative with
    | true =>
      have : -((m : ℚ) * 2 ^ e) = i := by simpa using hvalue
      linarith
    | false =>
      have hi : (m : ℚ) * 2 ^ e = i := by simpa using hvalue
      obtain ⟨hexponent, hshortest⟩ :=
        Digits.shortest_of_natural .up (fits_ofFloat hb) hi (by exact_mod_cast hpos) hlt
      simp only [positionalText, withSign]
      rw [naturalText]
      congr 1
      generalize Digits.shortest .up m e = d at hexponent hshortest
      obtain ⟨c, exponent⟩ := d
      obtain ⟨k, rfl⟩ := Int.eq_ofNat_of_zero_le hexponent
      rw [Digits.value_of_nonneg hexponent, Int.toNat_natCast] at hshortest
      have hci : c * 10 ^ k = i := by exact_mod_cast hshortest
      have hc : 0 < c := Nat.pos_of_ne_zero fun hzero => by
        rw [hzero, Nat.zero_mul] at hci
        rw [← hci, Nat.cast_zero] at hpos
        exact lt_irrefl _ hpos
      rw [← hci, digitsOf_mul_pow hc]
      rfl

/-! ### Reading a text again -/

theorem readUnsigned_of_isDigit {c : Char} (hc : c.isDigit = true) (cs : List Char) :
    readUnsigned (c :: cs) = read? (c :: cs) := by
  unfold read?
  split
  · next h =>
    cases h
    cases hc
  · next h =>
    cases h
    cases hc
  · rfl

theorem IsNumeral.trim_eq {cs : List Char} (h : IsNumeral cs) (negative : Prop)
    [Decidable negative] : Text.trim (withMinus negative cs) = withMinus negative cs := by
  have hblank : ∀ c ∈ withMinus negative cs, Text.isBlank c = false := by
    have hdigit : ∀ c : Char, c.isDigit = true → Text.isBlank c = false := by
      intro c hc
      obtain ⟨d, hd, rfl⟩ := exists_digitChar hc
      revert d
      decide
    have hbody : ∀ c ∈ cs, Text.isBlank c = false := by
      intro c hc
      rcases h.mem c hc with hc | rfl
      · exact hdigit c hc
      · decide
    unfold withMinus
    split
    · exact List.forall_mem_cons.mpr ⟨by decide, hbody⟩
    · exact hbody
  exact Text.trim_eq_self (fun c hc => hblank c (List.mem_of_mem_head? hc))
    fun c hc => hblank c (List.mem_of_mem_getLast? hc)

/-- **The text of every double is read as a number.** -/
theorem exists_readTrimmed?_display (x : Float) : ∃ p, readTrimmed? (display x) = some p := by
  cases hb : ofFloat x with
  | notANumber =>
    rw [display_notANumber hb]
    exact ⟨_, rfl⟩
  | infinite negative =>
    rw [readTrimmed?, toList_display_infinite hb]
    cases negative <;> exact ⟨_, rfl⟩
  | finite negative m e =>
    obtain ⟨body, hnumeral, -, htext⟩ := toList_display hb
    rw [readTrimmed?, htext, hnumeral.trim_eq]
    obtain ⟨value, hvalue⟩ := hnumeral.exists_read?
    unfold withMinus
    split
    · obtain ⟨c, cs, rfl, hc⟩ := hnumeral.exists_cons
      rw [← readUnsigned_of_isDigit hc] at hvalue
      refine ⟨Float.neg value, ?_⟩
      simp only [read?]
      rw [hvalue]
      rfl
    · exact ⟨value, hvalue⟩

end Decimal

end Roteiro
