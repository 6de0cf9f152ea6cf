import Roteiro.Token.Scan

/-!
# Words

Names and most keywords are words: a word begins with a letter that is no digit, and letters and
numerals follow, as many as there are. Its kind is told by its spelling.

* `chunk_of_beginsWord`: where such a letter stands a word is cut off.
* `ofWord_of_scanFrom`: the kind of a name is told by its spelling, and so is that of the receiver.
-/

namespace Roteiro

namespace Token

variable {c : Char} {cs : List Char}

/-- A word begins with the character. -/
def beginsWord (c : Char) : Bool := !c.isDigit && Text.isLetter c

theorem isNameChar_of_beginsWord (h : beginsWord c = true) : Text.isNameChar c = true :=
  Text.isNameChar_of_isLetter ((Bool.and_eq_true _ _).mp h).2

theorem isDigit_of_beginsWord (h : beginsWord c = true) : c.isDigit = false := by
  simpa using ((Bool.and_eq_true _ _).mp h).1

theorem chunk_of_beginsWord (h : beginsWord c = true) (cs : List Char) :
    chunk c cs = word c cs := by
  unfold chunk
  split
  case h_29 =>
    obtain ⟨hdigit, hletter⟩ := (Bool.and_eq_true _ _).mp h
    rw [if_neg (by simpa using hdigit), if_pos hletter]
  all_goals exact absurd h (by decide +kernel)

theorem chunk_of_isDigit (h : c.isDigit = true) (cs : List Char) : chunk c cs = number c cs := by
  unfold chunk
  split
  case h_29 => exact if_pos h
  all_goals exact absurd h (by decide)

/-- A name or the receiver. -/
def Reading.isName : Reading → Bool
  | .token .identifier => true
  | .token .selfKw => true
  | _ => false

/-- Only a word is read as a name or as the receiver. -/
theorem beginsWord_of_isName : (chunk c cs).reading.isName = true → beginsWord c = true := by
  unfold chunk
  split <;> intro h
  case h_14 | h_15 | h_16 | h_17 | h_18 =>
    unfold double at h
    split at h
    · split at h <;> cases h
    · cases h
  case h_19 =>
    unfold equalSign at h
    split at h <;> cases h
  case h_20 | h_21 =>
    unfold doubled at h
    split at h
    · split at h <;> cases h
    · cases h
  case h_26 =>
    unfold slash at h
    split at h <;> cases h
  case h_27 | h_28 =>
    unfold quoted at h
    dsimp only at h
    split at h <;> cases h
  case h_29 =>
    by_cases hdigit : c.isDigit = true
    · rw [if_pos hdigit] at h
      cases h
    · by_cases hletter : Text.isLetter c = true
      · simp [beginsWord, hdigit, hletter]
      · rw [if_neg hdigit, if_neg hletter] at h
        cases h
  all_goals cases h

/-- A token of a source is its end marker, or it is one of its chunks. -/
theorem exists_chunk_of_scanFrom {line : Nat} {cs : List Char} {t : Token}
    (ht : t ∈ (scanFrom line cs).filterMap Item.token?) :
    t.kind = .endOfInput ∧ t.lexeme = "" ∨
      ∃ c ds, (chunk c ds).reading = .token t.kind ∧
        t.lexeme = String.ofList (c :: (chunk c ds).front) := by
  induction line, cs using scanFrom.induct with
  | case1 line =>
    rw [scanFrom] at ht
    cases List.mem_singleton.mp ht
    exact Or.inl ⟨rfl, rfl⟩
  | case2 line c cs k line' ih =>
    rw [scanFrom, List.filterMap_append] at ht
    rcases List.mem_append.mp ht with ht | ht
    · obtain ⟨item, hitem, htoken⟩ := List.mem_filterMap.mp ht
      have hitem := Option.mem_toList.mp hitem
      unfold Chunk.item? at hitem
      split at hitem
      · cases hitem
      · next kind hreading =>
        cases hitem
        cases htoken
        exact Or.inr ⟨c, cs, hreading, rfl⟩
      · cases hitem
        cases htoken
    · exact ih ht

/-- **The kind of a name is told by its spelling**, and so is that of the receiver. -/
theorem ofWord_of_scanFrom {line : Nat} {cs : List Char} {t : Token}
    (ht : t ∈ (scanFrom line cs).filterMap Item.token?)
    (hkind : (Reading.token t.kind).isName = true) : Kind.ofWord t.lexeme = t.kind := by
  obtain ⟨hend, -⟩ | ⟨c, ds, hreading, hlexeme⟩ := exists_chunk_of_scanFrom ht
  · rw [hend] at hkind
    cases hkind
  · have hbegins := beginsWord_of_isName ((congrArg Reading.isName hreading).trans hkind)
    rw [chunk_of_beginsWord hbegins] at hreading hlexeme
    rw [hlexeme]
    exact Reading.token.inj hreading

theorem ofWord_of_tokenize {source : String} {t : Token} (ht : t ∈ (tokenize source).1)
    (hkind : (Reading.token t.kind).isName = true) : Kind.ofWord t.lexeme = t.kind :=
  ofWord_of_scanFrom ht hkind

end Token

end Roteiro
