import Roteiro.Proofs.Value.Table

/-!
# Pushing a value

A value is pushed under the text of the number of entries. In a table whose keys are positions this
key is new, and the value goes to the end. But a key can be put into a table by hand, so the text of
the number of entries may be there already; then the value takes the place of another.

* `Table.Made`: the tables there are, made of a list of values and changed one key at a time.
* `Table.Made.push_appended`, `Table.Made.push_replaced`: what a push does, as the key is new or
  not.
* `Table.Made.not_contains_of_dense`: in a dense table the key is new.
-/

namespace Roteiro

/-- What is bound stays bound when something is added behind it. -/
theorem Bindings.find?_append_of_some {α : Type} {b : Bindings α} {name : String} {value : α}
    (h : b.find? name = some value) (c : Bindings α) :
    Bindings.find? name (b ++ c) = some value := by
  induction b with
  | nil => cases h
  | cons p rest ih =>
    simp only [List.cons_append, find?] at h ⊢
    split
    · next hp => rwa [if_pos hp] at h
    · next hp =>
      rw [if_neg hp] at h
      exact ih h

theorem Bindings.find?_append_singleton_of_ne {α : Type} {name other : String} (h : other ≠ name)
    (value : α) (b : Bindings α) :
    Bindings.find? other (b ++ [(name, value)]) = b.find? other := by
  induction b with
  | nil => simp [find?, Ne.symm h]
  | cons p rest ih =>
    simp only [List.cons_append, find?]
    rw [ih]

namespace Table

variable {α : Type}

/-- A table that is made of the values of a list, with values put under keys after that. -/
inductive Made : Table α → Prop
  | ofList (values : List α) : Made (ofList values)
  | put {t : Table α} (h : Made t) (key : String) (value : α) : Made (t.put key value)

/-- The key under which the next value is pushed. -/
def nextKey (t : Table α) : String := Decimal.naturalText t.size

/-- `t.Appended value t'`: the value was added to the entries of `t` behind all of them. -/
structure Appended (t : Table α) (value : α) (t' : Table α) : Prop where
  /-- There is one entry more. -/
  size : t'.size = t.size + 1
  /-- All entries stay where they are. -/
  kept : ∀ {place : Nat} {entry : String × α}, t.entries[place]? = some entry →
    t'.entries[place]? = some entry
  /-- The value is the last one. -/
  last : t'.entries.back? = some (t.nextKey, value)
  /-- All keys lead to the values that they led to. -/
  found : ∀ {key : String} {old : α}, t.get? key = some old → t'.get? key = some old

/-- `t.Replaced value t'`: the value took the place of one of the entries of `t`. -/
structure Replaced (t : Table α) (value : α) (t' : Table α) : Prop where
  size : t'.size = t.size
  keys : t'.keys = t.keys
  /-- The old value of the key is lost. -/
  found : t'.get? t.nextKey = some value
  /-- All other keys lead to the values that they led to. -/
  others : ∀ {key : String}, key ≠ t.nextKey → t'.get? key = t.get? key

namespace Made

variable {t : Table α} (h : t.Made)

include h

/-- A table that is made is the list of its entries. -/
theorem refines : ∃ b, t.Refines b := by
  induction h with
  | ofList values => exact ⟨_, refines_ofList values⟩
  | put _ key value ih =>
    obtain ⟨b, hb⟩ := ih
    exact ⟨_, hb.put key value⟩

/-- A value that is put under a key changes what that key leads to, and no other. -/
theorem get?_put_of_ne {key other : String} (hne : other ≠ key) (value : α) :
    (t.put key value).get? other = t.get? other := by
  obtain ⟨b, hb⟩ := h.refines
  rw [(hb.put key value).get?, hb.get?, Bindings.put]
  split
  · exact Bindings.find?_replace_of_ne hne
  · exact Bindings.find?_append_singleton_of_ne hne value b

/-- The entries under other keys stay in their places, and no further ones are added. -/
theorem entries_put_iff {key : String} {place : Nat} {entry : String × α} (hne : entry.1 ≠ key)
    (value : α) :
    (t.put key value).entries[place]? = some entry ↔ t.entries[place]? = some entry := by
  obtain ⟨b, hb⟩ := h.refines
  have hvalue : entry ≠ (key, value) := fun heq => hne (congrArg Prod.fst heq)
  rw [← Array.getElem?_toList, ← Array.getElem?_toList]
  cases hplace : t.positions[key]? with
  | none =>
    rw [Refines.entries_put_of_none hplace, getElem?_concat_eq_some_iff]
    exact or_iff_left fun hlast => hvalue hlast.2
  | some known =>
    rw [Refines.entries_put_of_some hplace, List.getElem?_set]
    split
    · next heq =>
      -- at this place there was the same key
      have hkey := (hb.positions key known).mp hplace
      rw [b.getElem?_names, ← hb.entries, heq, Option.map_eq_some_iff] at hkey
      obtain ⟨old, hold, hfst⟩ := hkey
      have hother : old ≠ entry := fun h => hne (h ▸ hfst)
      rw [hold, Option.some.injEq]
      split
      · rw [Option.some.injEq]
        exact iff_of_false hvalue.symm hother
      · exact iff_of_false nofun hother
    · exact Iff.rfl

/-- The keys of a dense table are the texts of smaller numbers. -/
theorem not_contains_of_dense (hdense : t.dense = true) : t.contains t.nextKey = false := by
  obtain ⟨b, hb⟩ := h.refines
  rw [hb.contains, Bool.eq_false_iff, ne_eq, b.binds_iff, hb.dense.mp hdense, nextKey, hb.size]
  simp only [List.mem_map, List.mem_range, not_exists, not_and]
  exact fun place hlt htext => Nat.ne_of_lt hlt (Decimal.naturalText_injective htext)

/-- A value that is pushed under a new key goes to the end. -/
theorem push_appended (hnew : t.contains t.nextKey = false) (value : α) :
    t.Appended value (t.push value) := by
  obtain ⟨b, hb⟩ := h.refines
  have hpushed : (t.push value).Refines (b ++ [(t.nextKey, value)]) := by
    have hput := hb.put t.nextKey value
    rwa [Bindings.put, if_neg (by rw [← hb.contains, hnew]; exact Bool.false_ne_true)] at hput
  refine ⟨?_, fun {place entry} hentry => ?_, ?_, fun {key old} hold => ?_⟩
  · rw [hpushed.size, hb.size, List.length_append, List.length_singleton]
  · rw [← Array.getElem?_toList, hb.entries] at hentry
    rw [← Array.getElem?_toList, hpushed.entries]
    rw [List.getElem?_append_left (List.getElem?_eq_some_iff.mp hentry).1, hentry]
  · rw [← Array.getLast?_toList, hpushed.entries, List.getLast?_concat]
  · rw [hb.get?] at hold
    rw [hpushed.get?]
    exact Bindings.find?_append_of_some hold _

/-- A dense table stays dense. -/
theorem dense_push (hdense : t.dense = true) (value : α) : (t.push value).dense = true := by
  have hnew := h.not_contains_of_dense hdense
  rw [contains, Std.TreeMap.contains_eq_isSome_getElem?, Option.isSome_eq_false_iff,
    Option.isNone_iff_eq_none] at hnew
  rw [Table.push, ← nextKey, Table.put, hnew]
  exact Bool.and_eq_true_iff.mpr ⟨hdense, (isPosition_iff _ _).mpr rfl⟩

/-- A value that is pushed under a key which is there takes the place of the value there. -/
theorem push_replaced (hold : t.contains t.nextKey = true) (value : α) :
    t.Replaced value (t.push value) := by
  obtain ⟨b, hb⟩ := h.refines
  have hpushed : (t.push value).Refines (b.replace t.nextKey value) := by
    have hput := hb.put t.nextKey value
    rwa [Bindings.put, if_pos (by rw [← hb.contains, hold])] at hput
  have hnames : (b.replace t.nextKey value).names = b.names := b.names_replace t.nextKey value
  refine ⟨?_, ?_, ?_, fun {key} hkey => h.get?_put_of_ne hkey value⟩
  · rw [hpushed.size, hb.size, ← Bindings.length_names, hnames, Bindings.length_names]
  · rw [hpushed.keys, hb.keys, hnames]
  · rw [hpushed.get?]
    exact Bindings.find?_replace_self (hb.contains _ ▸ hold)

end Made

end Table

end Roteiro
