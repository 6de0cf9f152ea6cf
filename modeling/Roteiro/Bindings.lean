/-!
# Bindings of names

A list of names with what they are bound to. Each name counts by its first entry; binding a name
anew changes that entry in place, so a list that starts with every name once stays so.

* `find?_insert_self`, `find?_insert_of_ne`: binding a name changes that name and no other.
* `names_insert`: binding a name that is bound changes no name.
-/

namespace Roteiro

/-- Names and what they are bound to. -/
abbrev Bindings (α : Type) := List (String × α)

namespace Bindings

variable {α : Type}

/-- What a name is bound to. -/
def find? (name : String) : Bindings α → Option α
  | [] => none
  | (key, value) :: rest => if key = name then some value else find? name rest

/-- Whether a name is bound. -/
def binds (name : String) (b : Bindings α) : Bool := (find? name b).isSome

/-- Changes what a bound name is bound to, and nothing if it is not bound. -/
def replace (name : String) (new : α) : Bindings α → Bindings α
  | [] => []
  | (key, value) :: rest =>
    if key = name then (key, new) :: rest else (key, value) :: replace name new rest

/-- Binds a name, replacing what it was bound to. -/
def insert (name : String) (new : α) (b : Bindings α) : Bindings α :=
  if binds name b then replace name new b else (name, new) :: b

/-- The bound names. -/
def names (b : Bindings α) : List String := b.map Prod.fst

@[simp] theorem find?_nil (name : String) : find? name ([] : Bindings α) = none := rfl

theorem find?_replace_self {name : String} {new : α} {b : Bindings α} (h : binds name b) :
    find? name (replace name new b) = some new := by
  induction b with
  | nil => simp [binds] at h
  | cons p rest ih =>
    by_cases hp : p.1 = name
    · simp [replace, find?, hp]
    · simp only [binds, find?, hp, if_false] at h
      simp only [replace, find?, hp, if_false]
      exact ih h

theorem find?_replace_of_ne {name other : String} {new : α} {b : Bindings α} (h : other ≠ name) :
    find? other (replace name new b) = find? other b := by
  induction b with
  | nil => rfl
  | cons p rest ih =>
    by_cases hp : p.1 = name
    · have : name ≠ other := fun h' => h h'.symm
      simp [replace, find?, hp, this]
    · simp only [replace, find?, hp, if_false, ih]

@[simp] theorem find?_insert_self (name : String) (new : α) (b : Bindings α) :
    find? name (insert name new b) = some new := by
  unfold insert
  split
  · next h => exact find?_replace_self h
  · simp [find?]

theorem find?_insert_of_ne {name other : String} (h : other ≠ name) (new : α) (b : Bindings α) :
    find? other (insert name new b) = find? other b := by
  unfold insert
  split
  · exact find?_replace_of_ne h
  · have : name ≠ other := fun h' => h h'.symm
    simp [find?, this]

@[simp] theorem names_replace (name : String) (new : α) (b : Bindings α) :
    names (replace name new b) = names b := by
  induction b with
  | nil => rfl
  | cons p rest ih =>
    by_cases hp : p.1 = name
    · simp [replace, names, hp]
    · simp only [replace, hp, if_false]
      simpa [names] using ih

theorem names_insert {name : String} {b : Bindings α} (h : binds name b) (new : α) :
    names (insert name new b) = names b := by
  simp [insert, h]

end Bindings

end Roteiro
