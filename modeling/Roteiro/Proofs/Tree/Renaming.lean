import Mathlib.Logic.Equiv.Basic
import Roteiro.Bindings
import Roteiro.Proofs.Tree.Likeness
import Roteiro.Scope.Basic

/-!
# Renaming in some scopes

A `Renaming` exchanges two names in the scopes that have a mark, and nowhere else. What an
occurrence of a name is called then depends on the scope that it means, which its depth leads to.
Trees that are renamed in this way are of one shape; the marks, which a likeness leaves open, say in
which scopes names have been exchanged.

Since two names are exchanged, names that were different stay so, also where the second one occurs
already. It is of use as a new name only where it does not.

* `Renaming.likeness`: trees that are renamed in the scopes with a mark.
* `covers_same`: where no scope has one, nothing is renamed.
* `find?_respell`: what a name is bound to, it is bound to after both have been renamed.
-/

namespace Roteiro

/-- Two names. -/
structure Renaming where
  old : String
  new : String

namespace Renaming

variable (R : Renaming)

/-- A name of a scope, which has a mark or not. -/
def spell (mark : Bool) (name : String) : String :=
  if mark then Equiv.swap R.old R.new name else name

/-- A token that names something in a scope. -/
def spelled (mark : Bool) (t : Token) : Token := { t with lexeme := R.spell mark t.lexeme }

@[simp] theorem spell_false (name : String) : R.spell false name = name := rfl

@[simp] theorem spelled_false (t : Token) : R.spelled false t = t := rfl

theorem spell_injective (mark : Bool) : Function.Injective (R.spell mark) := by
  cases mark with
  | false => exact fun _ _ h => h
  | true => exact (Equiv.swap R.old R.new).injective

theorem spell_of_ne {name : String} (hold : name ≠ R.old) (hnew : name ≠ R.new) (mark : Bool) :
    R.spell mark name = name := by
  cases mark with
  | false => rfl
  | true => exact Equiv.swap_apply_of_ne_of_ne hold hnew

theorem spell_old : R.spell true R.old = R.new := Equiv.swap_apply_left R.old R.new

/-- A name is none of the two. -/
structure Spares (name : String) : Prop where
  old : name ≠ R.old
  new : name ≠ R.new

variable {R} in
theorem Spares.spell {name : String} (h : R.Spares name) (mark : Bool) : R.spell mark name = name :=
  R.spell_of_ne h.old h.new mark

/-- A name that is not the new one is left as it is or is the old one and becomes the new one. -/
theorem spell_cases {name : String} (h : name ≠ R.new) (mark : Bool) :
    R.spell mark name = name ∨ mark = true ∧ name = R.old ∧ R.spell mark name = R.new := by
  cases mark with
  | false => exact .inl rfl
  | true =>
    by_cases hold : name = R.old
    · exact .inr ⟨rfl, hold, hold ▸ R.spell_old⟩
    · exact .inl (R.spell_of_ne hold h true)

/-! ### Bindings -/

section Bindings

variable {α : Type}

/-- The bindings of a scope, which has a mark or not. -/
def respell (mark : Bool) (b : Bindings α) : Bindings α := b.map fun p => (R.spell mark p.1, p.2)

theorem respell_nil (mark : Bool) : R.respell mark ([] : Bindings α) = [] := rfl

@[simp] theorem respell_false (b : Bindings α) : R.respell false b = b := by
  simp [respell]

/-- What a name is bound to, it is bound to after both have been renamed. -/
theorem find?_respell (mark : Bool) (b : Bindings α) (name : String) :
    (R.respell mark b).find? (R.spell mark name) = b.find? name := by
  induction b with
  | nil => rfl
  | cons p b ih =>
    have hcons : R.respell mark (p :: b) = (R.spell mark p.1, p.2) :: R.respell mark b := rfl
    simp only [hcons, Bindings.find?, (R.spell_injective mark).eq_iff, ih]

theorem binds_respell (mark : Bool) (b : Bindings α) (name : String) :
    (R.respell mark b).binds (R.spell mark name) = b.binds name := by
  rw [Bindings.binds, Bindings.binds, find?_respell]

theorem insert_respell (mark : Bool) (b : Bindings α) (name : String) (v : α) :
    (R.respell mark b).insert (R.spell mark name) v = R.respell mark (b.insert name v) := by
  have hreplace : (R.respell mark b).replace (R.spell mark name) v =
      R.respell mark (b.replace name v) := by
    induction b with
    | nil => rfl
    | cons p b ih =>
      have hcons : ∀ (q : String × α) (c : Bindings α),
          R.respell mark (q :: c) = (R.spell mark q.1, q.2) :: R.respell mark c := fun _ _ => rfl
      simp only [hcons, Bindings.replace, (R.spell_injective mark).eq_iff, ih]
      split <;> rfl
  unfold Bindings.insert
  rw [binds_respell, hreplace]
  split <;> rfl

end Bindings

/-! ### Marks of scopes -/

/-- The mark of the scope that is so many steps further out, or of the outermost one. -/
def markAt (marks : List Bool) (distance : Nat) : Bool :=
  marks[distance]?.getD (marks.getLastD false)

/-- The mark of the scope that an occurrence means. The globals have none. -/
def markOf (T : Depths) (marks : List Bool) (id : Nat) : Bool :=
  match T[id]? with
  | some distance => markAt marks distance
  | none => false

/-- Trees that are renamed in the scopes with a mark; `T` has the depths of the occurrences. -/
def likeness (T : Depths) : Likeness where
  token t t' := t' = t
  keyword t t' := t' = t
  occurrence marks i n i' n' := i' = i ∧ n' = R.spelled (markOf T marks i) n ∧
    (markOf T marks i = true → n.lexeme ≠ R.new)
  binder mark n n' := n' = R.spelled mark n
  named mark n n' := n' = n ∧ (mark = true → n.lexeme ≠ R.old ∧ n.lexeme ≠ R.new)
  unnamed mark := mark = false

/-- The same, where the new name does not occur before. -/
def freshLikeness (T : Depths) : Likeness where
  token t t' := t' = t
  keyword t t' := t' = t
  occurrence marks i n i' n' := i' = i ∧ n' = R.spelled (markOf T marks i) n ∧ n.lexeme ≠ R.new
  binder mark n n' := n' = R.spelled mark n ∧ n.lexeme ≠ R.new
  named mark n n' := n' = n ∧ n.lexeme ≠ R.new ∧ (mark = true → n.lexeme ≠ R.old)
  unnamed mark := mark = false

theorem markOf_of_unmarked (T : Depths) {marks : List Bool} (h : true ∉ marks) (id : Nat) :
    markOf T marks id = false := by
  have hat : ∀ b, b ∈ marks → b = false := by
    intro b hb
    cases b with
    | false => rfl
    | true => exact absurd hb h
  unfold markOf
  split
  · next d _ =>
    unfold markAt
    cases hd : marks[d]? with
    | some b => exact hat b (List.mem_of_getElem? hd)
    | none =>
      rw [Option.getD_none, List.getLastD_eq_getLast?]
      cases hlast : marks.getLast? with
      | some b => exact hat b (List.mem_of_getLast? hlast)
      | none => rfl
  · rfl

/-- Nothing is renamed where no scope has a mark. -/
theorem covers_same (T : Depths) : (R.likeness T).Covers .same where
  token h := h.eq fun hl => hl
  keyword h := h.eq fun hl => hl
  occurrence hmarks hi hn := by
    simp only [likeness, markOf_of_unmarked T hmarks]
    exact ⟨hi, hn.eq fun hl => hl, nofun⟩
  binder h := h.eq fun hl => hl
  named h := ⟨h.eq fun hl => hl, nofun⟩
  unnamed := rfl

theorem fresh_le (T : Depths) : (R.freshLikeness T).Le (R.likeness T) where
  token h := h
  keyword h := h
  occurrence h := ⟨h.1, h.2.1, fun _ => h.2.2⟩
  binder h := h.1
  named h := ⟨h.1, fun hmark => ⟨h.2.2 hmark, h.2.1⟩⟩
  unnamed h := h

end Renaming

end Roteiro
