import Mathlib.Data.List.Nodup
import Mathlib.Data.List.Perm.Subperm
import Mathlib.Logic.Relation
import Roteiro.Value.Display

/-!
# How arrays are written

Arrays form a graph: an array may be held by several others, and by itself through others. The text
of a value follows the graph as if it were a tree, and only stops where an array is met inside of
itself. `Store.Writes` says this without any bound on the depth, so a derivation of it is a run that
ends; `Store.Plain` says how a value is written where nothing has to be stopped.

`Store.Occurs` are the places of a text: where a value stands, the arrays around it are those that
are open on the way from the outermost one. An array is only opened where it is not open already,
so no more arrays are open than there are in the store, and the bound on the depth is never reached.

* `Store.writes_iff`: the text of a value is what is written without a bound.
* `Store.textInside_of_occurs`: an array is written `[...]` just where it is open already.
* `Store.plain_iff`: where no array reaches itself, the text is the plain one.
-/

namespace Roteiro

/-- The text of a table only depends on the texts of its values. -/
theorem Table.text_congr {α : Type} {t : Table α} {f g : α → String}
    (h : ∀ p ∈ t.entries, f p.2 = g p.2) : t.text f = t.text g := by
  have hentries : ∀ p ∈ t.entries.toList, f p.2 = g p.2 :=
    fun p hp => h p (Array.mem_toList_iff.mp hp)
  simp only [Table.text]
  rw [List.map_congr_left fun p hp => by rw [hentries p hp]]

namespace Store

variable {s : Store}

/-- The text of a value that is no array. -/
def word (s : Store) (v : Value) : String := s.textWithin 0 [] v

/-- `s.Writes around v text`: inside the arrays `around`, the value is written so. -/
inductive Writes (s : Store) : List (Ref .arrays) → Value → String → Prop
  | word {around : List (Ref .arrays)} {v : Value} (hv : ∀ a, v ≠ .array a) :
    Writes s around v (s.word v)
  /-- An array inside of itself. -/
  | again {around : List (Ref .arrays)} {a : Ref .arrays} (ha : a ∈ around) :
    Writes s around (.array a) placeholder
  /-- An array is opened, and its entries are written inside of it. -/
  | opened {around : List (Ref .arrays)} {a : Ref .arrays} {show_ : Value → String}
      (ha : a ∉ around) (h : ∀ p ∈ (s.table a).entries, Writes s (a :: around) p.2 (show_ p.2)) :
    Writes s around (.array a) ((s.table a).text show_)

/-- `s.Plain v text`: the value is written so, and each array wherever it stands. -/
inductive Plain (s : Store) : Value → String → Prop
  | word {v : Value} (hv : ∀ a, v ≠ .array a) : Plain s v (s.word v)
  | array {a : Ref .arrays} {show_ : Value → String}
      (h : ∀ p ∈ (s.table a).entries, Plain s p.2 (show_ p.2)) :
    Plain s (.array a) ((s.table a).text show_)

/-- `s.Occurs root around v`: the value stands somewhere in `root`, with the arrays `around` open on
the way, the innermost first. -/
inductive Occurs (s : Store) (root : Value) : List (Ref .arrays) → Value → Prop
  | root : Occurs s root [] root
  | entry {around : List (Ref .arrays)} {a : Ref .arrays} {p : String × Value}
      (h : Occurs s root around (.array a)) (ha : a ∉ around) (hp : p ∈ (s.table a).entries) :
    Occurs s root (a :: around) p.2

/-- An array holds another one, or itself. -/
def Holds (s : Store) (a b : Ref .arrays) : Prop := ∃ key, (key, .array b) ∈ (s.table a).entries

/-- No array that can be reached from the value can be reached from itself. -/
def Acyclic (s : Store) (v : Value) : Prop :=
  ∀ a b, v = .array a → Relation.ReflTransGen s.Holds a b → ¬Relation.TransGen s.Holds b b

/-- The text of a value inside the arrays `around`, with what is left of the bound. -/
def textInside (s : Store) (around : List (Ref .arrays)) (v : Value) : String :=
  s.textWithin (s.arrays.size + 1 - around.length) around v

/-! ### The bound -/

/-- The arrays around a place are different ones, and all of them are there. -/
structure Path (s : Store) (around : List (Ref .arrays)) : Prop where
  nodup : around.Nodup
  lt : ∀ a ∈ around, a.index < s.arrays.size

theorem Path.nil (s : Store) : s.Path [] := ⟨List.nodup_nil, List.forall_mem_nil _⟩

/-- An array that has an entry is there. -/
theorem lt_size_of_mem_entries {a : Ref .arrays} {p : String × Value}
    (hp : p ∈ (s.table a).entries) : a.index < s.arrays.size := by
  refine Nat.lt_of_not_le fun hge => ?_
  rw [table, Array.getD_eq_getD_getElem?, Array.getElem?_eq_none hge] at hp
  exact absurd hp (Array.not_mem_empty p)

theorem Path.cons {around : List (Ref .arrays)} {a : Ref .arrays} {p : String × Value}
    (h : s.Path around) (ha : a ∉ around) (hp : p ∈ (s.table a).entries) : s.Path (a :: around) :=
  ⟨List.nodup_cons.mpr ⟨ha, h.nodup⟩, List.forall_mem_cons.mpr ⟨lt_size_of_mem_entries hp, h.lt⟩⟩

/-- No more arrays are open than there are. -/
theorem Path.length_le {around : List (Ref .arrays)} (h : s.Path around) :
    around.length ≤ s.arrays.size := by
  have hinjective : (around.map Ref.index).Nodup :=
    h.nodup.map fun a b hab => by cases a; cases b; simpa using hab
  have hsubset : around.map Ref.index ⊆ List.range s.arrays.size := by
    intro i hi
    obtain ⟨a, ha, rfl⟩ := List.mem_map.mp hi
    exact List.mem_range.mpr (h.lt a ha)
  simpa using (List.subperm_of_subset hinjective hsubset).length_le

theorem Occurs.path {root v : Value} {around : List (Ref .arrays)} (h : s.Occurs root around v) :
    s.Path around := by
  induction h with
  | root => exact .nil s
  | entry _ ha hp ih => exact ih.cons ha hp

/-! ### What is written -/

theorem textWithin_of_ne {v : Value} (hv : ∀ a, v ≠ .array a) (depth : Nat)
    (around : List (Ref .arrays)) : s.textWithin depth around v = s.word v := by
  unfold word
  match v with
  | .array a => exact absurd rfl (hv a)
  | .number _ | .string _ | .boolean true | .boolean false | .nil | .function _ | .builtin _
  | .classRef _ | .instanceRef _ => cases depth <;> rfl

theorem textWithin_of_mem {a : Ref .arrays} {around : List (Ref .arrays)} (ha : a ∈ around)
    (depth : Nat) : s.textWithin depth around (.array a) = placeholder := by
  cases depth with
  | zero => rfl
  | succ depth => simp only [textWithin, List.contains_iff_mem.mpr ha, if_true]

theorem textWithin_of_not_mem {a : Ref .arrays} {around : List (Ref .arrays)} (ha : a ∉ around)
    (depth : Nat) : s.textWithin (depth + 1) around (.array a) =
      (s.table a).text (s.textWithin depth (a :: around)) := by
  simp only [textWithin, List.contains_iff_mem, ha, if_false]

/-- Inside of arrays that are different and there, the bound is never reached. -/
theorem writes_textWithin {depth : Nat} {around : List (Ref .arrays)} (hpath : s.Path around)
    (hdepth : s.arrays.size < depth + around.length) (v : Value) :
    s.Writes around v (s.textWithin depth around v) := by
  induction depth generalizing around v with
  | zero =>
    have := hpath.length_le
    omega
  | succ depth ih =>
    by_cases hv : ∀ a, v ≠ .array a
    · rw [textWithin_of_ne hv]
      exact .word hv
    · simp only [ne_eq, not_forall, not_not] at hv
      obtain ⟨a, rfl⟩ := hv
      by_cases ha : a ∈ around
      · rw [textWithin_of_mem ha]
        exact .again ha
      · rw [textWithin_of_not_mem ha]
        refine .opened ha fun p hp => ih (hpath.cons ha hp) ?_ p.2
        rw [List.length_cons]
        omega

/-- What is written is determined. -/
theorem Writes.unique {around : List (Ref .arrays)} {v : Value} {text text' : String}
    (h : s.Writes around v text) (h' : s.Writes around v text') : text' = text := by
  induction h generalizing text' with
  | word hv =>
    cases h' with
    | word _ => rfl
    | again _ | opened _ _ => exact absurd rfl (hv _)
  | again ha =>
    cases h' with
    | word hv => exact absurd rfl (hv _)
    | again _ => rfl
    | opened hnot _ => exact absurd ha hnot
  | opened ha _ ih =>
    cases h' with
    | word hv => exact absurd rfl (hv _)
    | again hmem => exact absurd hmem ha
    | opened _ h => exact Table.text_congr fun p hp => ih p hp (h p hp)

/-- **The text of a value is what is written without a bound.** -/
theorem writes_iff (v : Value) (text : String) : s.Writes [] v text ↔ text = s.text v := by
  have hwrites : s.Writes [] v (s.text v) :=
    writes_textWithin (.nil s) (Nat.lt_succ_self _) v
  exact ⟨fun h => hwrites.unique h, fun h => h ▸ hwrites⟩

/-- **An array is written `[...]` just where it is open already.** Anywhere else it is opened. -/
theorem textInside_of_occurs {root : Value} {around : List (Ref .arrays)} {a : Ref .arrays}
    (h : s.Occurs root around (.array a)) :
    s.textInside around (.array a) =
      if a ∈ around then placeholder else (s.table a).text (s.textInside (a :: around)) := by
  have hlength := h.path.length_le
  split
  · next ha => exact textWithin_of_mem ha _
  · next ha =>
    unfold textInside
    rw [Nat.succ_sub hlength, textWithin_of_not_mem ha, List.length_cons, Nat.add_sub_add_right]

/-! ### Arrays that do not reach themselves -/

/-- An array at some place is reached from the outermost one, and from all arrays that are open. -/
theorem Occurs.reached {root : Value} {around : List (Ref .arrays)} {a : Ref .arrays}
    (h : s.Occurs root around (.array a)) :
    (∃ first, root = .array first ∧ Relation.ReflTransGen s.Holds first a) ∧
      ∀ b ∈ around, Relation.TransGen s.Holds b a := by
  generalize hv : Value.array a = v at h
  induction h generalizing a with
  | root => exact ⟨⟨a, hv.symm, .refl⟩, List.forall_mem_nil _⟩
  | @entry around c p h _ hp ih =>
    obtain ⟨⟨first, hroot, hfirst⟩, houter⟩ := ih rfl
    have hholds : s.Holds c a := ⟨p.1, hv ▸ hp⟩
    exact ⟨⟨first, hroot, hfirst.tail hholds⟩, List.forall_mem_cons.mpr
      ⟨.single hholds, fun b hb => (houter b hb).tail hholds⟩⟩

theorem Acyclic.not_mem {root : Value} (hroot : s.Acyclic root) {around : List (Ref .arrays)}
    {a : Ref .arrays} (h : s.Occurs root around (.array a)) : a ∉ around := by
  obtain ⟨⟨first, hfirst, hreach⟩, houter⟩ := h.reached
  exact fun ha => hroot first a hfirst hreach (houter a ha)

/-- Where nothing is open already, all is written plainly. -/
theorem Writes.plain {root : Value} (hroot : s.Acyclic root) {around : List (Ref .arrays)}
    {v : Value} {text : String} (h : s.Writes around v text) (hoccurs : s.Occurs root around v) :
    s.Plain v text := by
  induction h with
  | word hv => exact .word hv
  | again ha => exact absurd ha (hroot.not_mem hoccurs)
  | opened ha _ ih => exact .array fun p hp => ih p hp (hoccurs.entry ha hp)

theorem Plain.unique {v : Value} {text text' : String} (h : s.Plain v text)
    (h' : s.Plain v text') : text' = text := by
  induction h generalizing text' with
  | word hv =>
    cases h' with
    | word _ => rfl
    | array _ => exact absurd rfl (hv _)
  | array _ ih =>
    cases h' with
    | word hv => exact absurd rfl (hv _)
    | array h => exact Table.text_congr fun p hp => ih p hp (h p hp)

/-- **Where no array reaches itself, the text is the plain one.** -/
theorem plain_iff {v : Value} (hv : s.Acyclic v) (text : String) :
    s.Plain v text ↔ text = s.text v := by
  have hplain : s.Plain v (s.text v) := ((writes_iff v _).mpr rfl).plain hv .root
  exact ⟨fun h => hplain.unique h, fun h => h ▸ hplain⟩

/-- **How arrays are written**, in any store, whatever is shared in it and whatever holds itself.
Writing a value comes to an end without any bound on the depth, and gives the text of the value. On
the way an array is written `[...]` just where it is open already, and is opened anywhere else. If
no array that the value reaches reaches itself, then no array is ever met where it is open, and the
text is the plain one. -/
theorem text_spec (s : Store) (v : Value) :
    (∀ text, s.Writes [] v text ↔ text = s.text v) ∧
    (∀ around a, s.Occurs v around (.array a) → s.textInside around (.array a) =
      if a ∈ around then placeholder else (s.table a).text (s.textInside (a :: around))) ∧
    (s.Acyclic v → (∀ around a, s.Occurs v around (.array a) → a ∉ around) ∧
      ∀ text, s.Plain v text ↔ text = s.text v) :=
  ⟨writes_iff v, fun _ _ h => textInside_of_occurs h,
    fun hv => ⟨fun _ _ h => hv.not_mem h, plain_iff hv⟩⟩

/-- Three arrays: the first holds the second one twice, the last holds itself and the first. -/
def sharing : Store :=
  { initial with
    arrays := #[.ofList [.array ⟨1⟩, .array ⟨1⟩], (Table.ofList [.string "a"]).put "k" .nil,
      .ofList [.array ⟨2⟩, .array ⟨0⟩]] }

theorem sharing_text_spec :
    sharing.Writes [] (.array ⟨2⟩) "[[...], [[0 => a, k => nulo], [0 => a, k => nulo]]]" ∧
    sharing.Acyclic (.array ⟨0⟩) ∧
    sharing.Plain (.array ⟨0⟩) "[[0 => a, k => nulo], [0 => a, k => nulo]]" := by
  have hfirst : ∀ {b}, sharing.Holds ⟨0⟩ b → b = ⟨1⟩ := by
    rintro b ⟨key, hb⟩
    have hentries : (sharing.table ⟨0⟩).entries = #[("0", .array ⟨1⟩), ("1", .array ⟨1⟩)] := by
      decide +kernel
    simp only [hentries, List.mem_toArray, List.mem_cons, Prod.mk.injEq, Value.array.injEq,
      List.not_mem_nil, or_false] at hb
    exact hb.elim And.right And.right
  have hsecond : ∀ {b}, ¬sharing.Holds ⟨1⟩ b := by
    rintro b ⟨key, hb⟩
    have hentries : (sharing.table ⟨1⟩).entries = #[("0", .string "a"), ("k", .nil)] := by
      decide +kernel
    simp [hentries] at hb
  have hstays : ∀ {b}, Relation.ReflTransGen sharing.Holds ⟨1⟩ b → b = ⟨1⟩ := by
    intro b h
    obtain heq | ⟨c, hc, -⟩ := h.cases_head
    · exact heq.symm
    · exact absurd hc hsecond
  have hacyclic : sharing.Acyclic (.array ⟨0⟩) := by
    rintro a b ⟨⟩ hreach hcycle
    obtain ⟨c, hc, hback⟩ := Relation.TransGen.head'_iff.mp hcycle
    obtain rfl | ⟨d, hd, hreach⟩ := hreach.cases_head
    · cases hfirst hc
      cases hstays hback
    · cases hfirst hd
      cases hstays hreach
      exact hsecond hc
  obtain ⟨hwrites, -⟩ := text_spec sharing (.array ⟨2⟩)
  refine ⟨(hwrites _).mpr (by decide +kernel), hacyclic, ?_⟩
  exact (((text_spec sharing (.array ⟨0⟩)).2.2 hacyclic).2 _).mpr (by decide +kernel)

end Store

end Roteiro
