import Roteiro.Proofs.Session.Arrays
import Roteiro.Proofs.Value.Equality

/-!
# Arrays of a given size

An array of a given size is made of so many equal values, in a table of its own. The size may be any
value: it is good just if it is a number that equals one of the natural numbers up to the most that
is allowed. So nothing that is no number, infinite, fractional or negative is a size, but a negative
zero is, as it equals zero.

* `Builtin.count_eq_ok_iff`: which values are sizes.
* `Table.filled_replicate`: the table of so many equal values.
* `sized_arrays`: when an array of a given size is made, and which.
-/

namespace Roteiro

/-- `t.Filled k v`: the table has `k` entries under the numbers below `k`, in their order, and each
of them is `v`. -/
structure Table.Filled {α : Type} (t : Table α) (k : Nat) (v : α) : Prop where
  entries : t.entries.toList = (List.range k).map fun i => (Decimal.naturalText i, v)
  size : t.size = k
  dense : t.dense = true

/-- The table of so many equal values. -/
theorem Table.filled_replicate {α : Type} (k : Nat) (v : α) :
    (ofList (List.replicate k v)).Filled k v := by
  have hrefines := refines_ofList (List.replicate k v)
  refine ⟨?_, ?_, ?_⟩
  · rw [hrefines.entries]
    exact List.ext_getElem (by simp) (by simp [Bindings.numbered])
  · rw [hrefines.size, Bindings.length_numbered, List.length_replicate]
  · rw [hrefines.dense, Bindings.names_numbered, Bindings.length_numbered]

namespace Builtin

/-- **Which values are sizes**: the numbers that equal a natural number up to the most that is
allowed. -/
theorem count_eq_ok_iff {s : Store} {v : Value} {k : Nat} :
    count s v = .ok k ↔ ∃ x, v = .number x ∧ (x == ofInteger k) = true ∧ k ≤ maxFill := by
  cases v with
  | number x =>
    have hnumber : number "Size" (.number x) = .ok x := rfl
    have hmax : maxFill < 2 ^ 53 := by decide
    have hequal : ∀ n ≤ maxFill, ((x == ofInteger n) = true ↔
        (Decimal.Binary.ofFloat x).toInt? = some (.ofNat n)) := by
      intro n hn
      rw [beq_ofInteger_iff (hn.trans_lt hmax), Decimal.Binary.toInt?_eq_some_iff,
        Int.ofNat_eq_natCast, Int.cast_natCast]
    rw [count, hnumber]
    dsimp only [Bind.bind, Except.bind]
    constructor
    · intro h
      split at h
      · next n hn =>
        split at h
        · next hle =>
          cases h
          exact ⟨x, rfl, (hequal k hle).mpr hn, hle⟩
        · cases h
      · cases h
    · rintro ⟨y, ⟨⟩, hx, hle⟩
      rw [(hequal k hle).mp hx]
      exact if_pos hle
  | _ =>
    refine iff_of_false ?_ ?_
    · rintro ⟨⟩
    · rintro ⟨x, ⟨⟩, -⟩

/-- An array of so many equal values, if the size is good. -/
def sized (size v : Value) : Act Value := do
  let n ← check (count (← store) size)
  filled n v

theorem sized_eq (size v : Value) (m : Machine) : sized size v m =
    match count m.store size with
    | .ok n => .ok (.array ⟨m.store.arrays.size⟩)
        { m with store := (m.store.addArray (.ofList (List.replicate n v))).2 }
    | .error failure => .error failure m := by
  have hbind : sized size v m =
      EStateM.bind (check (count m.store size)) (fun n => filled n v) m := rfl
  rw [hbind]
  cases count m.store size <;> rfl

/-- `act.MakesFilled size v`: the action makes an array of `size` entries that are all `v`. It does
so just if the size is a number that equals an integer from zero to `16777216`. The array is a new
one, and nothing else in the machine changes. -/
structure Act.MakesFilled (act : Act Value) (size v : Value) : Prop where
  ok_iff : ∀ m : Machine, (∃ r m', act m = .ok r m') ↔ ∃ (x : Float) (k : Int),
    size = .number x ∧ (x == ofInteger k) = true ∧ 0 ≤ k ∧ k ≤ 16777216
  made : ∀ (m : Machine) (x : Float) (k : Nat), size = .number x → (x == ofInteger k) = true →
    k ≤ 16777216 → ∃ t : Table Value, t.Filled k v ∧ act m =
      .ok (.array ⟨m.store.arrays.size⟩)
        { m with store := { m.store with arrays := m.store.arrays.push t } }

theorem makesFilled_sized (size v : Value) : (sized size v).MakesFilled size v where
  ok_iff m := by
    rw [sized_eq]
    cases hcount : count m.store size with
    | ok k =>
      obtain ⟨x, hsize, hx, hle⟩ := count_eq_ok_iff.mp hcount
      exact iff_of_true ⟨_, _, rfl⟩ ⟨x, k, hsize, hx, Int.natCast_nonneg k, Int.ofNat_le.mpr hle⟩
    | error failure =>
      refine iff_of_false ?_ ?_
      · rintro ⟨r, m', ⟨⟩⟩
      · rintro ⟨x, k, hsize, hx, hnonneg, hle⟩
        obtain ⟨n, rfl⟩ := Int.eq_ofNat_of_zero_le hnonneg
        rw [count_eq_ok_iff.mpr ⟨x, hsize, hx, Int.ofNat_le.mp hle⟩] at hcount
        cases hcount
  made m x k hsize hx hle := by
    refine ⟨_, Table.filled_replicate k v, ?_⟩
    rw [sized_eq, count_eq_ok_iff.mpr ⟨x, hsize, hx, hle⟩]
    rfl

end Builtin

/-- **Arrays of a given size.** Whatever values are given for the size and for the entries, an array
is made just if the size is a number that equals an integer from zero to `16777216`. Its keys are
the numbers below that integer, in their order, and each of them leads to the value for the entries,
or to `nulo` where none is given. -/
theorem sized_arrays (size fill : Value) :
    (Builtin.fillList.call [size, fill]).MakesFilled size fill ∧
    (Builtin.newVector.call [size, fill]).MakesFilled size fill ∧
    (Builtin.newVector.call [size]).MakesFilled size .nil :=
  ⟨Builtin.makesFilled_sized size fill, Builtin.makesFilled_sized size fill,
    Builtin.makesFilled_sized size .nil⟩

/-- A negative zero is a size, and three is one. -/
theorem sized_arrays_zero_three :
    let m := (Session.start (.withInput [])).machine
    (∃ t : Table Value, t.Filled 0 .nil ∧ Builtin.newVector.call [.number (-0)] m =
      .ok (.array ⟨0⟩) { m with store := { m.store with arrays := m.store.arrays.push t } }) ∧
    ∃ t : Table Value, t.Filled 3 (.boolean true) ∧
      Builtin.fillList.call [.number 3, .boolean true] m =
        .ok (.array ⟨0⟩) { m with store := { m.store with arrays := m.store.arrays.push t } } := by
  intro m
  obtain ⟨-, -, hzero⟩ := sized_arrays (.number (-0)) .nil
  obtain ⟨hthree, -, -⟩ := sized_arrays (.number 3) (.boolean true)
  exact ⟨hzero.made m (-0) 0 rfl (by decide +kernel) (by decide),
    hthree.made m 3 3 rfl (by decide +kernel) (by decide)⟩

end Roteiro
