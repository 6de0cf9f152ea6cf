import Roteiro.Proofs.Session.Arrays
import Roteiro.Proofs.Value.Equality

/-!
# Numbers as keys

A number is a key by its text. Texts of numbers tell numbers apart as equality does, so equal
numbers are one key, and different ones are different keys. The values of a list are put under the
texts of their places, which are written without going through doubles; but the text of a natural
number that is a double is the same either way (`Decimal.display_of_natural`), so a place is found
under the number that equals it.

* `Table.get?_ofList`: the values of a list, by their places.
* `pushes_foldl`: values that are pushed into an array, one after another.
* `number_keys`: the keys of numbers, and the values under them.
-/

namespace Roteiro

namespace Table

variable {α : Type}

/-- The values of a list are found under the texts of their places. -/
theorem get?_ofList (values : List α) {i : Nat} (h : i < values.length) :
    (ofList values).get? (Decimal.naturalText i) = some values[i] := by
  have hrefines := refines_ofList values
  have hentry : (Bindings.numbered values)[i]? = some (Decimal.naturalText i, values[i]) := by
    simp [Bindings.numbered, h]
  rw [hrefines.get?]
  exact Bindings.find?_of_getElem? hrefines.distinct hentry

end Table

namespace Store

variable {s : Store} {a : Ref .arrays}

theorem size_putEntry (key : String) (value : Value) :
    (s.putEntry a key value).arrays.size = s.arrays.size := Array.size_modify

theorem table_putEntry (ha : a.index < s.arrays.size) (key : String) (value : Value) :
    (s.putEntry a key value).table a = (s.table a).put key value := by
  rw [putEntry_eq a ha, table, Array.getD_eq_getD_getElem?, Array.getElem?_set_self ha,
    Option.getD_some]

end Store

/-- Pushes values into an array, one after another. -/
def pushes (a : Ref .arrays) (values : List Value) : Builtin.Act Unit :=
  values.forM fun v => do discard (Builtin.push.call [.array a, v])

/-- Every push puts its value under the text of the number of entries. -/
theorem pushes_foldl {a : Ref .arrays} (values : List Value) {m : Machine}
    (ha : a.index < m.store.arrays.size) :
    ∃ m', pushes a values m = .ok () m' ∧
      m'.store.table a = values.foldl Table.push (m.store.table a) := by
  induction values generalizing m with
  | nil => exact ⟨m, rfl, rfl⟩
  | cons v values ih =>
    let next := { m with store := m.store.putEntry a (m.store.table a).nextKey v }
    have hnext : next.store.table a = (m.store.table a).push v := Store.table_putEntry ha _ v
    have ha' : a.index < next.store.arrays.size := lt_of_lt_of_eq ha (Store.size_putEntry _ v).symm
    obtain ⟨m', hrun, htable⟩ := ih ha'
    exact ⟨m', hrun, htable.trans (by rw [hnext]; rfl)⟩

/-- The key of a natural number below `2 ^ 53` is the text of a place. -/
theorem key?_of_beq_ofInteger {x : Float} {i : Nat} (hlt : i < 2 ^ 53)
    (h : (x == Builtin.ofInteger i) = true) :
    (Value.number x).key? = some (Decimal.naturalText i) :=
  congrArg some (Decimal.display_of_natural hlt ((Builtin.beq_ofInteger_iff hlt).mp h))

/-- The only numbers that are equal and not the same are the two zeros. -/
theorem beq_iff_of_isNaN {x y : Float} (hx : x.isNaN = false) (hy : y.isNaN = false) :
    (x == y) = true ↔ x = y ∨ x = 0 ∧ y = -0 ∨ x = -0 ∧ y = 0 := by
  rw [Float.isNaN_eq_decide_eq_nan, decide_eq_false_iff_not] at hx hy
  rw [Float.beq_iff_ne_nan_and_eq]
  exact ⟨fun h => h.2.2, fun h => ⟨hx, hy, h⟩⟩

/-- **Numbers as keys.** Two numbers have the same key just if they are equal, that is, if they are
the same or are the two zeros. And the values of a list are found under the numbers of their places,
both in a table that is made of the list and in an empty array into which the values are pushed one
after another. Below `2 ^ 53` every place is a double. No array has a place beyond that: a text and
a value for each place before it would take more memory than addresses of 57 bits reach. -/
theorem number_keys :
    (∀ x y : Float, x.isNaN = false → y.isNaN = false →
      ((Value.number x).key? = (Value.number y).key? ↔ (x == y) = true) ∧
      ((x == y) = true ↔ x = y ∨ x = 0 ∧ y = -0 ∨ x = -0 ∧ y = 0)) ∧
    ∀ (values : List Value) (i : Nat) (h : i < values.length), i < 2 ^ 53 →
      ∀ x : Float, (x == Builtin.ofInteger i) = true →
        ∃ key, (Value.number x).key? = some key ∧
          (Table.ofList values).get? key = some values[i] ∧
          ∀ (m : Machine) (a : Ref .arrays), a.index < m.store.arrays.size →
            m.store.table a = .empty →
            ∃ m', pushes a values m = .ok () m' ∧
              (m'.store.table a).get? key = some values[i] := by
  refine ⟨fun x y hx hy => ⟨?_, beq_iff_of_isNaN hx hy⟩, fun values i h hlt x hx => ?_⟩
  · rw [Value.key?, Value.key?, Option.some_inj]
    exact Decimal.display_eq_iff (Decimal.Binary.ofFloat_ne_of_isNaN hx)
      (Decimal.Binary.ofFloat_ne_of_isNaN hy)
  · have hfound := Table.get?_ofList values h
    refine ⟨_, key?_of_beq_ofInteger hlt hx, hfound, fun m a ha hempty => ?_⟩
    obtain ⟨m', hrun, htable⟩ := pushes_foldl values ha
    refine ⟨m', hrun, ?_⟩
    rw [htable, hempty]
    exact hfound

/-- The first natural number that is no double is rounded to the one before it. -/
example : Builtin.ofInteger (2 ^ 53 + 1) = Builtin.ofInteger (2 ^ 53) := by decide +kernel

/-- A machine with one array, which is empty. -/
def oneArray : Machine :=
  let started := (Session.start (.withInput [])).machine
  { started with store := (started.store.addArray .empty).2 }

/-- A negative zero is the place of the first value, and numbers that differ in the last bit are
different keys. -/
theorem number_keys_zero :
    ¬ (Value.number 0.3).key? = (Value.number (0.1 + 0.2)).key? ∧
    ∃ key, (Value.number (-0)).key? = some key ∧
      (Table.ofList [Value.nil]).get? key = some .nil ∧
      ∃ m', pushes ⟨0⟩ [.nil] oneArray = .ok () m' ∧ (m'.store.table ⟨0⟩).get? key = some .nil := by
  refine ⟨?_, ?_⟩
  · rw [(number_keys.1 0.3 (0.1 + 0.2) (by decide +kernel) (by decide +kernel)).1]
    decide +kernel
  · obtain ⟨key, hkey, hfound, hpushed⟩ :=
      number_keys.2 [.nil] 0 (by decide) (by decide) (-0) (by decide +kernel)
    exact ⟨key, hkey, hfound, hpushed oneArray ⟨0⟩ (by decide) rfl⟩

end Roteiro
