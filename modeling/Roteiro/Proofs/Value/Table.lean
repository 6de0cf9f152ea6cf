import Mathlib.Data.List.Induction
import Roteiro.Bindings
import Roteiro.Value.Table

/-!
# Tables as lists of entries

What a table means is the list of its entries, in the order in which their keys came in. A table
keeps two more things, so that it need not go through that list: the place of each key, and whether
the keys are the positions `0`, `1`, … in their order. `Table.Refines t b` says that all of this is
right for the entries `b`, and every table that is made by putting values under keys refines the
list that is made in the same way.

* `isPosition_iff`: the texts of positions, of all texts there are.
* `Table.Refines.put`: a value is put under a key.
* `refines_puts`: whatever is put under whatever keys.
-/

namespace Roteiro

namespace Decimal

/-! ### Digits without a zero in front -/

theorem digitsValue_eq (start : Nat) (cs : List Char) :
    digitsValue start cs = Nat.ofDigitChars 10 cs start := by
  rw [digitsValue, Nat.ofDigitChars_eq_foldl]
  simp only [Nat.mul_comm]

@[simp] theorem digitsValue_digitsOf (n : Nat) : digitsValue 0 (digitsOf n) = n := by
  rw [digitsValue_eq]
  exact Nat.ofDigitChars_ten_toDigits

theorem naturalText_injective {m n : Nat} (h : naturalText m = naturalText n) : m = n := by
  have hdigits : digitsOf m = digitsOf n := String.ofList_injective h
  rw [← digitsValue_digitsOf m, hdigits, digitsValue_digitsOf]

/-- A digit is the digit of a number below ten. -/
theorem exists_digitChar {c : Char} (h : c.isDigit = true) : ∃ d < 10, c = Nat.digitChar d := by
  refine ⟨c.toNat - 48, ?_, ?_⟩
  all_goals
    obtain ⟨hlo, hhi⟩ : 48 ≤ c.toNat ∧ c.toNat ≤ 57 := by
      simpa [Char.isDigit, UInt32.le_iff_toNat_le] using h
  · omega
  · refine Char.toNat_inj.mp ?_
    rw [Nat.toNat_digitChar_of_lt_ten (by omega)]
    omega

/-- Digits of which the first is no zero are the digits of what they stand for, which is not
zero. -/
theorem digitsOf_digitsValue {cs : List Char} (hne : cs ≠ []) (hdigits : ∀ c ∈ cs, c.isDigit = true)
    (hhead : cs.head? ≠ some '0') : digitsOf (digitsValue 0 cs) = cs ∧ 0 < digitsValue 0 cs := by
  induction cs using List.reverseRecOn with
  | nil => exact absurd rfl hne
  | append_singleton cs c ih =>
    obtain ⟨d, hd, rfl⟩ := exists_digitChar (hdigits c (by simp))
    have hvalue : digitsValue 0 (cs ++ [d.digitChar]) = 10 * digitsValue 0 cs + d := by
      rw [digitsValue_eq, digitsValue_eq, Nat.ofDigitChars_append,
        Nat.ofDigitChars_cons_digitChar_of_lt_ten hd, Nat.ofDigitChars_nil]
    rw [hvalue]
    -- one digit, or one digit more behind a number that is not zero
    cases cs with
    | nil =>
      have hzero : d ≠ 0 := fun h => hhead (by rw [h]; rfl)
      rw [show digitsValue 0 [] = 0 from rfl, Nat.mul_zero, Nat.zero_add]
      exact ⟨Nat.toDigits_of_lt_base hd, Nat.pos_of_ne_zero hzero⟩
    | cons x cs =>
      obtain ⟨hfront, hpos⟩ := ih (List.cons_ne_nil x cs)
        (fun y hy => hdigits y (List.mem_append_left _ hy)) hhead
      refine ⟨?_, by omega⟩
      rw [digitsOf, ← Nat.toDigits_append_toDigits (by decide) hpos hd, ← digitsOf, hfront,
        Nat.toDigits_of_lt_base hd]

/-- The first digit of a number is no zero, unless the number is. -/
theorem head?_digitsOf_ne {n : Nat} (h : 0 < n) : (digitsOf n).head? ≠ some '0' := by
  induction n using Nat.strongRecOn with
  | ind n ih =>
    rw [digitsOf, Nat.toDigits_eq_if (by decide)]
    split
    · simpa using Nat.pos_iff_ne_zero.mp h
    · next hbig =>
      have hfront := ih (n / 10) (by omega) (by omega)
      rw [digitsOf] at hfront
      rwa [List.head?_append, List.head?_eq_some_head Nat.toDigits_ne_nil, Option.some_or,
        ← List.head?_eq_some_head]

end Decimal

/-- **The texts of positions.** Of all texts only the decimal digits of a position pass for it: none
that is empty, has a sign or a zero too many in front, or stands for more. -/
theorem isPosition_iff (key : String) (place : Nat) :
    Table.isPosition key place = true ↔ key = Decimal.naturalText place := by
  have hdigits : ∀ c ∈ Decimal.digitsOf place, c.isDigit = true :=
    fun c hc => Nat.isDigit_of_mem_toDigits (by decide) (by decide) hc
  have hspelled : key = Decimal.naturalText place ↔ key.toList = Decimal.digitsOf place := by
    rw [Decimal.naturalText, ← String.toList_inj, String.toList_ofList]
  have hzero : key = "0" ↔ key.toList = ['0'] := by
    rw [← String.toList_inj]
    rfl
  rw [hspelled]
  simp only [Table.isPosition, Bool.and_eq_true, Bool.or_eq_true, decide_eq_true_eq, hzero,
    List.all_eq_true]
  constructor
  · rintro ⟨⟨⟨hall, hcanonical⟩, hne⟩, hvalue⟩
    rcases hcanonical with hsingle | hhead
    · rw [hsingle] at hvalue ⊢
      rw [← hvalue]
      decide
    · rw [← hvalue, (Decimal.digitsOf_digitsValue hne hall hhead).1]
  · rintro h
    rw [h]
    refine ⟨⟨⟨hdigits, ?_⟩, Nat.toDigits_ne_nil⟩, Decimal.digitsValue_digitsOf place⟩
    by_cases hplace : place = 0
    · rw [hplace]
      exact .inl rfl
    · exact .inr (Decimal.head?_digitsOf_ne (Nat.pos_of_ne_zero hplace))

/-! ### Lists of entries -/

namespace Bindings

variable {α : Type}

/-- The entries after a value was put under a key: in the place of the key if it is there, at the end
otherwise. -/
def put (key : String) (value : α) (b : Bindings α) : Bindings α :=
  if b.binds key then b.replace key value else b ++ [(key, value)]

/-- The values under the texts of their places. -/
def numbered (values : List α) : Bindings α :=
  values.mapIdx fun place value => (Decimal.naturalText place, value)

theorem binds_iff (b : Bindings α) (key : String) : b.binds key = true ↔ key ∈ b.names := by
  induction b with
  | nil => simp [binds, names]
  | cons p rest ih =>
    by_cases hp : p.1 = key
    · simp [binds, names, find?, hp]
    · rw [names, List.map_cons, List.mem_cons, or_iff_right (Ne.symm hp), ← names, ← ih]
      simp only [binds, find?, hp, if_false]

theorem getElem?_names (b : Bindings α) (place : Nat) : b.names[place]? = b[place]?.map Prod.fst := by
  rw [names, List.getElem?_map]

/-- Where no key is there twice, the entry of a key is the one that is found. -/
theorem find?_of_getElem? {b : Bindings α} (hb : b.names.Nodup) {place : Nat} {key : String}
    {value : α} (h : b[place]? = some (key, value)) : b.find? key = some value := by
  induction b generalizing place with
  | nil => cases h
  | cons p rest ih =>
    cases place with
    | zero =>
      cases h
      simp [find?]
    | succ place =>
      obtain ⟨hp, hrest⟩ := List.nodup_cons.mp hb
      have hmem : key ∈ names rest := List.mem_map.mpr ⟨_, List.mem_of_getElem? h, rfl⟩
      have hne : p.1 ≠ key := fun heq => hp (heq ▸ hmem)
      simp only [find?, hne, if_false]
      exact ih hrest h

/-- The entry of a key is the one that is replaced. -/
theorem replace_eq_set {b : Bindings α} (hb : b.names.Nodup) {place : Nat} {key : String}
    (h : b.names[place]? = some key) (value : α) : b.replace key value = b.set place (key, value) := by
  induction b generalizing place with
  | nil => cases h
  | cons p rest ih =>
    cases place with
    | zero =>
      cases h
      simp [replace]
    | succ place =>
      obtain ⟨hp, hrest⟩ := List.nodup_cons.mp hb
      have hne : p.1 ≠ key := fun heq => hp (heq ▸ List.mem_of_getElem? h)
      simp only [replace, hne, if_false, List.set_cons_succ]
      rw [ih hrest h]

@[simp] theorem length_names (b : Bindings α) : b.names.length = b.length := List.length_map _

@[simp] theorem length_numbered (values : List α) : (numbered values).length = values.length :=
  List.length_mapIdx

theorem names_numbered (values : List α) :
    (numbered values).names = (List.range values.length).map Decimal.naturalText :=
  List.ext_getElem (by simp) (by simp [names, numbered])

/-- The next place is a new key. -/
theorem put_numbered (values : List α) (value : α) :
    (numbered values).put (Decimal.naturalText values.length) value = numbered (values ++ [value]) := by
  rw [put, if_neg, numbered, numbered, List.mapIdx_concat]
  rw [binds_iff, names_numbered]
  simp only [List.mem_map, List.mem_range, not_exists, not_and]
  intro place hlt htext
  exact Nat.ne_of_lt hlt (Decimal.naturalText_injective htext)

end Bindings

/-! ### Tables -/

/-- An element comes after a list, or is its own last one. -/
theorem getElem?_concat_eq_some_iff {β : Type} (l : List β) (x y : β) (i : Nat) :
    (l ++ [x])[i]? = some y ↔ l[i]? = some y ∨ i = l.length ∧ y = x := by
  rw [List.getElem?_append]
  split
  · next hlt => simp [Nat.ne_of_lt hlt]
  · next hge =>
    rw [List.getElem?_eq_none (Nat.le_of_not_lt hge)]
    by_cases hi : i = l.length
    · simp [hi, eq_comm]
    · rw [List.getElem?_eq_none (by simp; omega)]
      simp [hi]

namespace Table

variable {α : Type}

/-- The table has the entries `b`, and what else it keeps is right for them. -/
structure Refines (t : Table α) (b : Bindings α) : Prop where
  entries : t.entries.toList = b
  /-- No key is there twice. -/
  distinct : b.names.Nodup
  /-- The place of each key, and of nothing else. -/
  positions : ∀ (key : String) (place : Nat), t.positions[key]? = some place ↔ b.names[place]? = some key
  /-- A dense table is one whose keys are the texts of the places, in their order. -/
  dense : t.dense = true ↔ b.names = (List.range b.length).map Decimal.naturalText

namespace Refines

variable {t : Table α} {b : Bindings α} (h : t.Refines b)

include h

theorem size : t.size = b.length := by
  rw [Table.size, ← Array.length_toList, h.entries]

theorem keys : t.keys = b.names := by
  rw [Table.keys, h.entries, Bindings.names]

/-- The place of a key is a place among the entries. -/
theorem lt_size {key : String} {place : Nat} (hplace : t.positions[key]? = some place) :
    place < t.size := by
  obtain ⟨hlt, -⟩ := List.getElem?_eq_some_iff.mp ((h.positions key place).mp hplace)
  rw [h.size]
  simpa [Bindings.names] using hlt

/-- A key that has no place is not there. -/
theorem not_mem {key : String} (hnone : t.positions[key]? = none) : key ∉ b.names := by
  intro hmem
  obtain ⟨place, hplace⟩ := List.mem_iff_getElem?.mp hmem
  rw [(h.positions key place).mpr hplace] at hnone
  cases hnone

theorem contains (key : String) : t.contains key = b.binds key := by
  rw [Table.contains, Std.TreeMap.contains_eq_isSome_getElem?, Bool.eq_iff_iff, b.binds_iff]
  cases hplace : t.positions[key]? with
  | none => simpa using h.not_mem hplace
  | some place => simpa using List.mem_of_getElem? ((h.positions key place).mp hplace)

theorem get? (key : String) : t.get? key = b.find? key := by
  unfold Table.get?
  cases hplace : t.positions[key]? with
  | none =>
    have hnone : ¬ b.binds key = true := mt (b.binds_iff key).mp (h.not_mem hplace)
    rw [Bindings.binds, Bool.not_eq_true, Option.isSome_eq_false_iff, Option.isNone_iff_eq_none]
      at hnone
    exact hnone.symm
  | some place =>
    have hkey := (h.positions key place).mp hplace
    rw [b.getElem?_names, Option.map_eq_some_iff] at hkey
    obtain ⟨⟨_, value⟩, hentry, rfl⟩ := hkey
    rw [Bindings.find?_of_getElem? h.distinct hentry]
    dsimp only
    rw [← Array.getElem?_toList, h.entries, hentry]
    rfl

omit h in
/-- A key that is there keeps its place, and no other entry changes. -/
theorem entries_put_of_some {key : String} {place : Nat} (hplace : t.positions[key]? = some place)
    (value : α) : (t.put key value).entries.toList = t.entries.toList.set place (key, value) := by
  rw [Table.put, hplace]
  exact Array.toList_setIfInBounds

omit h in
/-- A new key goes to the end, and no entry changes. -/
theorem entries_put_of_none {key : String} (hplace : t.positions[key]? = none) (value : α) :
    (t.put key value).entries.toList = t.entries.toList ++ [(key, value)] := by
  rw [Table.put, hplace]
  exact Array.toList_push

/-- A value is put under a key that is there. -/
theorem put_of_some {key : String} {place : Nat} (hplace : t.positions[key]? = some place)
    (value : α) : (t.put key value).Refines (b.replace key value) := by
  have hkey := (h.positions key place).mp hplace
  have hnames : (b.replace key value).names = b.names := b.names_replace key value
  have hlength : (b.replace key value).length = b.length := by
    rw [← Bindings.length_names, hnames, Bindings.length_names]
  refine ⟨?_, ?_, ?_, ?_⟩
  · rw [entries_put_of_some hplace, h.entries, Bindings.replace_eq_set h.distinct hkey]
  · rw [hnames]
    exact h.distinct
  · rw [hnames, Table.put, hplace]
    exact h.positions
  · rw [hnames, hlength, Table.put, hplace]
    exact h.dense

/-- A value is put under a new key. -/
theorem put_of_none {key : String} (hplace : t.positions[key]? = none) (value : α) :
    (t.put key value).Refines (b ++ [(key, value)]) := by
  have hnew := h.not_mem hplace
  have hnames : (b ++ [(key, value)]).names = b.names ++ [key] := List.map_append
  have hsize : t.entries.size = b.length := h.size
  refine ⟨?_, ?_, fun k place => ?_, ?_⟩
  · rw [entries_put_of_none hplace, h.entries]
  · rw [hnames, List.nodup_append]
    refine ⟨h.distinct, by simp, fun x hx y hy hxy => hnew ?_⟩
    rwa [← List.mem_singleton.mp hy, ← hxy]
  · rw [hnames, Table.put, hplace, hsize, ← b.length_names]
    dsimp only
    rw [Std.TreeMap.getElem?_insert, getElem?_concat_eq_some_iff, ← h.positions]
    by_cases hk : k = key
    · -- the key has no place before, and the last one now
      rw [hk, hplace, Std.compare_self, if_pos rfl]
      simp [eq_comm]
    · have hcompare : compare key k ≠ .eq := fun heq => hk (Std.LawfulEqOrd.eq_of_compare heq).symm
      simp only [if_neg hcompare, hk, and_false, or_false]
  · -- the table stays dense just if the new key is the text of the next place
    rw [hnames, Table.put, hplace, hsize]
    dsimp only
    rw [Bool.and_eq_true, h.dense, isPosition_iff, List.length_append, List.length_singleton,
      List.range_succ, List.map_append, List.map_singleton]
    constructor
    · rintro ⟨hfront, hlast⟩
      rw [hfront, ← hlast]
    · intro hall
      obtain ⟨hfront, hlast⟩ := List.append_inj' hall rfl
      exact ⟨hfront, (List.cons.inj hlast).1⟩

/-- **A value is put under a key.** -/
theorem put (key : String) (value : α) : (t.put key value).Refines (b.put key value) := by
  cases hplace : t.positions[key]? with
  | some place =>
    have hkey := (h.positions key place).mp hplace
    rw [Bindings.put, if_pos ((b.binds_iff key).mpr (List.mem_of_getElem? hkey))]
    exact h.put_of_some hplace value
  | none =>
    rw [Bindings.put, if_neg (mt (b.binds_iff key).mp (h.not_mem hplace))]
    exact h.put_of_none hplace value

/-- Values are put under keys, one after another. -/
theorem puts (puts : List (String × α)) :
    (puts.foldl (fun t p => t.put p.1 p.2) t).Refines (puts.foldl (fun b p => b.put p.1 p.2) b) := by
  induction puts generalizing t b with
  | nil => exact h
  | cons p puts ih => exact ih (h.put p.1 p.2)

end Refines

theorem refines_empty : (empty : Table α).Refines [] where
  entries := rfl
  distinct := List.nodup_nil
  positions key place := by simp [empty, Bindings.names]
  dense := by simp [empty, Bindings.names]

/-- The values of a list are put under the texts of their places. -/
theorem refines_ofList (values : List α) : (ofList values).Refines (Bindings.numbered values) := by
  induction values using List.reverseRecOn with
  | nil => exact refines_empty
  | append_singleton values value ih =>
    have hpush : ofList (values ++ [value]) = (ofList values).push value := by
      rw [ofList, List.foldl_append, ← ofList, List.foldl_cons, List.foldl_nil]
    rw [hpush, push, ih.size, Bindings.length_numbered, ← Bindings.put_numbered]
    exact ih.put _ _

/-- **A table is the list of its entries.** Whatever values a table is made of, and whatever is put
under whatever keys after that, it has the entries of the list that is made in the same way, and
gives what that list gives. No key is there twice, the table knows the place of each key and of
nothing else, and it is dense just if the keys are the texts of the places, in their order. A key
that is put anew keeps its place; a new key goes to the end, and no entry before it changes. -/
theorem refines_puts (values : List α) (puts : List (String × α)) :
    (ofList [] : Table α) = empty ∧
    let t := puts.foldl (fun t p => t.put p.1 p.2) (ofList values)
    let b := puts.foldl (fun b p => b.put p.1 p.2) (Bindings.numbered values)
    t.entries.toList = b ∧ t.size = b.length ∧
    (∀ key, t.get? key = b.find? key ∧ t.contains key = b.binds key) ∧
    t.keys.Nodup ∧
    (∀ (key : String) (place : Nat), t.positions[key]? = some place ↔ t.keys[place]? = some key) ∧
    (∀ (key : String) (place : Nat), t.positions[key]? = some place → place < t.entries.size) ∧
    (t.dense = true ↔ t.keys = (List.range t.size).map Decimal.naturalText) ∧
    ∀ (key : String) (value : α),
      (∀ place : Nat, t.positions[key]? = some place →
        (t.put key value).positions[key]? = some place ∧
        (t.put key value).entries.toList = t.entries.toList.set place (key, value)) ∧
      (t.contains key = false →
        (t.put key value).entries.toList = t.entries.toList ++ [(key, value)]) := by
  refine ⟨rfl, ?_⟩
  intro t b
  have h : t.Refines b := (refines_ofList values).puts puts
  refine ⟨h.entries, h.size, fun key => ⟨h.get? key, h.contains key⟩, ?_, ?_,
    fun key place => h.lt_size, ?_, fun key value => ⟨fun place hplace => ⟨?_, ?_⟩, fun hnew => ?_⟩⟩
  · rw [h.keys]
    exact h.distinct
  · rw [h.keys]
    exact h.positions
  · rw [h.keys, h.size]
    exact h.dense
  · rw [put, hplace]
    exact hplace
  · exact Refines.entries_put_of_some hplace value
  · rw [contains, Std.TreeMap.contains_eq_isSome_getElem?, Option.isSome_eq_false_iff,
      Option.isNone_iff_eq_none] at hnew
    exact Refines.entries_put_of_none hnew value

/-- One zero too many is enough: `[0 => 1, 02 => 2]`. -/
example : ((ofList [1]).put "02" 2).dense = false := by cbv

end Table

end Roteiro
