import Roteiro.Proofs.Token.Renaming
import Roteiro.Proofs.Token.Tiling

/-!
# Lexemes set apart

In a source the tokens may stand side by side, since a chunk takes as many characters as fit. Where
its lexeme is written again with a blank behind it, or nothing, the chunk fits just as well and no
better. So the lexemes of a source can be set apart by single blanks, and are scanned to the same
tokens.

* `chunk_apart`: a token is cut off again in front of a blank.
* `Decimal.IsNumeral.exists_read?`: a numeral is read as a number.
* `tokenize_spaced`: the lexemes of a source, set apart by blanks, are scanned to the same tokens.
-/

namespace Roteiro

/-! ### Numerals -/

namespace Decimal

/-- A numeral: digits, and maybe a point with more digits behind it. -/
inductive IsNumeral : List Char → Prop
  | whole {cs} (hne : cs ≠ []) (hcs : ∀ c ∈ cs, c.isDigit = true) : IsNumeral cs
  | fraction {cs ds} (hne : cs ≠ []) (hcs : ∀ c ∈ cs, c.isDigit = true)
    (hne' : ds ≠ []) (hds : ∀ d ∈ ds, d.isDigit = true) : IsNumeral (cs ++ '.' :: ds)

variable {cs ds : List Char}

theorem toLower_of_isDigit {c : Char} (hc : c.isDigit = true) : c.toLower = c := by
  have hnot : ¬ (c.val ≥ 'A'.val ∧ c.val ≤ 'Z'.val) := by
    simp only [Char.isDigit, Bool.and_eq_true, decide_eq_true_eq, ge_iff_le,
      UInt32.le_iff_toNat_le] at hc ⊢
    have hnine : '9'.val.toNat < 'A'.val.toNat := by decide
    omega
  exact dif_neg hnot

/-- No word for a number begins with a digit, and no sign is one. -/
theorem read?_of_isDigit {c : Char} (hc : c.isDigit = true) (cs : List Char) :
    read? (c :: cs) = readDecimal (c :: cs) := by
  have hword : ∀ word : List Char, (word.head?.all fun d => !d.isDigit) = true →
      (c :: cs).map Char.toLower ≠ word := by
    rintro word hword rfl
    simp [toLower_of_isDigit hc, hc] at hword
  have hunsigned : readUnsigned (c :: cs) = readDecimal (c :: cs) := by
    unfold readUnsigned
    dsimp only
    rw [if_neg, if_neg]
    · exact hword _ (by decide)
    · rintro (h | h)
      · exact hword _ (by decide) h
      · exact hword _ (by decide) h
  unfold read?
  split
  · next h =>
    cases h
    cases hc
  · next h =>
    cases h
    cases hc
  · exact hunsigned

/-- Digits alone are read as the number that they spell. -/
theorem read?_whole (hne : cs ≠ []) (hcs : ∀ c ∈ cs, c.isDigit = true) :
    read? cs = some (nearest (digitsValue 0 cs) 0) := by
  obtain ⟨c, cs, rfl⟩ := List.exists_cons_of_ne_nil hne
  have htake : (c :: cs).takeWhile Char.isDigit = c :: cs := List.takeWhile_eq_self_iff.mpr hcs
  have hdrop : (c :: cs).dropWhile Char.isDigit = [] := List.dropWhile_eq_nil_iff.mpr hcs
  rw [read?_of_isDigit (hcs c List.mem_cons_self)]
  simp only [readDecimal, htake, hdrop]
  rfl

/-- Digits with a point among them are read as the decimal that they spell. -/
theorem read?_fraction (hne : cs ≠ []) (hcs : ∀ c ∈ cs, c.isDigit = true)
    (hds : ∀ d ∈ ds, d.isDigit = true) :
    read? (cs ++ '.' :: ds) =
      some (nearest (digitsValue (digitsValue 0 cs) ds) (-(Int.ofNat ds.length))) := by
  obtain ⟨c, cs, rfl⟩ := List.exists_cons_of_ne_nil hne
  have hpoint : ∀ x ∈ ('.' :: ds).head?, x.isDigit = false := by
    rintro x ⟨⟩
    decide
  have hcut := Token.takeWhile_stop Char.isDigit (c :: cs) hpoint
  rw [List.takeWhile_eq_self_iff.mpr hcs] at hcut
  have htake : ds.takeWhile Char.isDigit = ds := List.takeWhile_eq_self_iff.mpr hds
  have hdrop : ds.dropWhile Char.isDigit = [] := List.dropWhile_eq_nil_iff.mpr hds
  rw [List.cons_append, read?_of_isDigit (hcs c List.mem_cons_self), ← List.cons_append]
  simp only [readDecimal, hcut.1, hcut.2, htake, hdrop]
  rfl

/-- **A numeral is read as a number.** -/
theorem IsNumeral.exists_read? (h : IsNumeral cs) : ∃ value, read? cs = some value := by
  cases h with
  | whole hne hcs => exact ⟨_, read?_whole hne hcs⟩
  | fraction hne hcs _ hds => exact ⟨_, read?_fraction hne hcs hds⟩

end Decimal

namespace Token

variable {c : Char} {cs ds : List Char}

/-! ### Chunks in front of a blank -/

/-- Nothing follows, or a blank does. -/
def Apart (ds : List Char) : Prop := ∀ c ∈ ds.head?, c = ' '

theorem apart_nil : Apart [] := nofun

theorem apart_cons (ds : List Char) : Apart (' ' :: ds) := by
  rintro c ⟨⟩
  rfl

theorem Apart.head?_ne (h : Apart ds) {x : Char} (hx : x ≠ ' ') : ds.head? ≠ some x :=
  fun hds => hx (h x hds)

theorem Apart.stops (h : Apart ds) {p : Char → Bool} (hp : p ' ' = false) :
    ∀ x ∈ ds.head?, p x = false := by
  intro x hx
  rw [h x hx]
  exact hp

theorem slash_apart {kind : Kind} (hreading : (slash cs).reading = .token kind) (h : Apart ds) :
    slash ((slash cs).front ++ ds) = (slash cs).inFrontOf ds := by
  by_cases hslash : cs.head? = some '/'
  · obtain ⟨es, rfl⟩ := List.head?_eq_some_iff.mp hslash
    cases hreading
  · rw [slash_short hslash]
    exact slash_short (h.head?_ne (by decide))

/-- **A token is cut off again in front of a blank.** -/
theorem chunk_apart {kind : Kind} (hreading : (chunk c cs).reading = .token kind) (h : Apart ds) :
    chunk c ((chunk c cs).front ++ ds) = (chunk c cs).inFrontOf ds := by
  have hsound : ∀ cause, (chunk c cs).reading ≠ .fault cause := by
    intro cause
    rw [hreading]
    exact Reading.noConfusion
  by_cases hdigit : c.isDigit = true
  · simp only [chunk_of_isDigit hdigit]
    refine number_inFrontOf (h.stops (by decide)) ?_
    rintro d es rfl
    exact absurd rfl (h.head?_ne (by decide))
  · by_cases hword : beginsWord c = true
    · simp only [chunk_of_beginsWord hword]
      exact word_inFrontOf (h.stops (by decide +kernel))
    · revert hsound hreading
      unfold chunk
      split <;> intro hreading hsound
      -- a blank is not the second character of a sign
      case h_14 | h_15 | h_16 | h_17 | h_18 =>
        exact double_inFrontOf fun hds => absurd hds (h.head?_ne (by decide))
      case h_19 =>
        exact equalSign_inFrontOf (fun hds => absurd hds (h.head?_ne (by decide)))
          fun hds => absurd hds (h.head?_ne (by decide))
      case h_20 | h_21 => exact doubled_inFrontOf hsound
      case h_26 => exact slash_apart hreading h
      case h_27 | h_28 => exact quoted_inFrontOf hsound
      -- a stray character is no token
      case h_29 =>
        have hletter : Text.isLetter c ≠ true := fun hletter => hword (by simp [beginsWord, *])
        rw [if_neg hdigit, if_neg hletter] at hsound
        exact absurd rfl (hsound _)
      all_goals rfl

/-! ### What a lexeme looks like -/

/-- The lexeme of a token that carries a value spells the value, and that of a name is free to be
one. -/
structure WellSpelled (t : Token) : Prop where
  number : ∀ {value}, t.kind = .number value →
    Decimal.IsNumeral t.lexeme.toList ∧ Decimal.read? t.lexeme.toList = some value
  string : ∀ {text}, t.kind = .string text → ∃ quote ∈ ['"', '\''], quote ∉ text.toList ∧
    t.lexeme = String.singleton quote ++ text ++ String.singleton quote
  identifier : t.kind = .identifier → t.lexeme ∉ Kind.keywords.map Prod.fst

theorem ofWord_ne_number (text : String) (value : Float) : Kind.ofWord text ≠ .number value := by
  intro hkind
  have hmem := ofWord_mem_plain text
  rw [hkind] at hmem
  simp [Kind.plain] at hmem

/-- Only where a digit stands a number is cut off. -/
theorem isDigit_of_number {value : Float} :
    (chunk c cs).reading = .token (.number value) → c.isDigit = true := by
  unfold chunk
  split <;> intro h
  case h_14 | h_15 | h_16 | h_17 | h_18 =>
    unfold double at h
    split at h
    · split at h <;> cases h
    · cases h
  case h_19 =>
    unfold equalSign at h
    split at h <;> cases h
  case h_20 | h_21 =>
    unfold doubled at h
    split at h
    · split at h <;> cases h
    · cases h
  case h_26 =>
    unfold slash at h
    split at h <;> cases h
  case h_27 | h_28 =>
    unfold quoted at h
    dsimp only at h
    split at h <;> cases h
  case h_29 =>
    by_contra hdigit
    rw [if_neg hdigit] at h
    split at h
    · exact ofWord_ne_number _ value (Reading.token.inj h)
    · cases h
  all_goals cases h

/-- The digits of a number are a numeral. -/
theorem isNumeral_number (hc : c.isDigit = true) (cs : List Char) :
    Decimal.IsNumeral (c :: (number c cs).front) := by
  have hdigits : ∀ ds : List Char, ∀ d ∈ ds.takeWhile Char.isDigit, d.isDigit = true := fun _ =>
    List.all_eq_true.mp List.all_takeWhile
  have hwhole : ∀ d ∈ c :: cs.takeWhile Char.isDigit, d.isDigit = true :=
    List.forall_mem_cons.mpr ⟨hc, hdigits cs⟩
  simp only [number]
  obtain ⟨d, es, -, hd, htail⟩ | ⟨-, htail⟩ := numberTail_cases cs
  · rw [htail, ← List.cons_append]
    refine .fraction (List.cons_ne_nil _ _) hwhole ?_ (hdigits _)
    rw [List.takeWhile_cons_of_pos hd]
    exact List.cons_ne_nil _ _
  · rw [htail]
    exact .whole (List.cons_ne_nil _ _) hwhole

/-- A text in quotes is its value between two quotes of a kind. -/
theorem front_of_string {text : String} (h : (chunk c cs).reading = .token (.string text)) :
    c ∈ ['"', '\''] ∧ c ∉ text.toList ∧ (chunk c cs).front = text.toList ++ [c] := by
  have hcut := chunk_cut c cs
  generalize chunk c cs = k at h hcut
  cases hcut with
  | symbol hkind =>
    cases h
    simp [Kind.plain] at hkind
  | quoted hc hbody =>
    cases h
    rw [String.toList_ofList]
    exact ⟨hc, hbody, rfl⟩
  | blank | comment | number | unterminated | stray => cases h

/-- A word that is not reserved is none of the reserved ones. -/
theorem notMem_of_ofWord {word : String} (h : Kind.ofWord word = .identifier) :
    word ∉ Kind.keywords.map Prod.fst := by
  intro hmem
  unfold Kind.ofWord at h
  cases hfound : Kind.keywords.lookup word with
  | none =>
    obtain ⟨p, hp, rfl⟩ := List.mem_map.mp hmem
    have hne := List.lookup_eq_none_iff.mp hfound p hp
    simp at hne
  | some kind =>
    obtain ⟨front, rest, hsplit, -⟩ := List.lookup_eq_some_iff.mp hfound
    have hkeywords : ∀ p ∈ Kind.keywords, p.2 ≠ .identifier := by decide +kernel
    rw [hfound] at h
    exact hkeywords (word, kind) (by rw [hsplit]; simp) h

/-- **A lexeme spells what its token is.** -/
theorem wellSpelled_of_scanFrom {line : Nat} {t : Token}
    (ht : t ∈ (scanFrom line cs).filterMap Item.token?) : t.WellSpelled where
  number := by
    intro value hkind
    obtain ⟨hend, -⟩ | ⟨c, ds, hreading, hlexeme⟩ := exists_chunk_of_scanFrom ht
    · rw [hend] at hkind
      cases hkind
    · rw [hkind] at hreading
      have hdigit := isDigit_of_number hreading
      rw [chunk_of_isDigit hdigit] at hreading hlexeme
      have hnumeral := isNumeral_number hdigit ds
      obtain ⟨value', hread⟩ := hnumeral.exists_read?
      rw [hlexeme, String.toList_ofList]
      refine ⟨hnumeral, ?_⟩
      simp only [number] at hread hreading ⊢
      rw [hread] at hreading ⊢
      cases hreading
      rfl
  string := by
    intro text hkind
    obtain ⟨hend, -⟩ | ⟨c, ds, hreading, hlexeme⟩ := exists_chunk_of_scanFrom ht
    · rw [hend] at hkind
      cases hkind
    · rw [hkind] at hreading
      obtain ⟨hquote, hbody, hfront⟩ := front_of_string hreading
      refine ⟨c, hquote, hbody, ?_⟩
      rw [hlexeme, hfront]
      simp [← String.toList_inj]
  identifier := by
    intro hkind
    refine notMem_of_ofWord ?_
    rw [ofWord_of_scanFrom ht (by rw [hkind]; rfl), hkind]

/-! ### Lexemes with blanks between them -/

/-- The lexeme of a token is cut off as this token in front of a blank. -/
def Stands (t : Token) : Prop :=
  ∃ c cs, t.lexeme = String.ofList (c :: cs) ∧
    ∀ ds, Apart ds → chunk c (cs ++ ds) = ⟨.token t.kind, cs, ds⟩

theorem stands_of_scanFrom {line : Nat} {t : Token}
    (ht : t ∈ (scanFrom line cs).filterMap Item.token?) (hkind : t.kind ≠ .endOfInput) :
    t.Stands := by
  obtain ⟨hend, -⟩ | ⟨c, ds, hreading, hlexeme⟩ := exists_chunk_of_scanFrom ht
  · exact absurd hend hkind
  · refine ⟨c, _, hlexeme, fun es hes => ?_⟩
    rw [chunk_apart hreading hes, Chunk.inFrontOf, hreading]

/-- What a token is, but for its line. -/
def written (t : Token) : Kind × String := (t.kind, t.lexeme)

/-- The lexemes of some tokens, with single blanks between them. -/
def spacedOut (tokens : List Token) : List Char :=
  [' '].intercalate (tokens.map (·.lexeme.toList))

/-- The lexeme of the first token, and what follows it. -/
theorem spacedOut_cons (t : Token) (tokens : List Token) : ∃ gap, Apart gap ∧
    spacedOut (t :: tokens) = t.lexeme.toList ++ gap ∧
    ∀ line, scanFrom line gap = scanFrom line (spacedOut tokens) := by
  cases tokens with
  | nil =>
    refine ⟨[], apart_nil, ?_, fun line => rfl⟩
    rw [List.append_nil]
    exact List.intercalate_singleton
  | cons t' tokens =>
    refine ⟨' ' :: spacedOut (t' :: tokens), apart_cons _, ?_, fun line => ?_⟩
    · rw [spacedOut, List.map_cons, List.map_cons, List.intercalate_cons_cons, List.append_assoc]
      rfl
    · rw [scanFrom_cons]
      rfl

/-- Tokens that stand on their own are scanned again from their lexemes. -/
theorem scanFrom_spacedOut (line : Nat) (tokens : List Token) (h : ∀ t ∈ tokens, t.Stands) :
    ∃ tokens' : List Token, scanFrom line (spacedOut tokens) = tokens'.map Item.token ∧
      tokens'.map written = tokens.map written ++ [(.endOfInput, "")] := by
  induction tokens generalizing line with
  | nil => exact ⟨[⟨.endOfInput, "", line⟩], scanFrom.eq_1 line, rfl⟩
  | cons t tokens ih =>
    obtain ⟨ht, htokens⟩ := List.forall_mem_cons.mp h
    obtain ⟨c, cs, hlexeme, hchunk⟩ := ht
    obtain ⟨gap, hgap, hspaced, hscan⟩ := spacedOut_cons t tokens
    let next := line + newlines (c :: cs)
    obtain ⟨tokens', hrest, hwritten⟩ := ih next htokens
    refine ⟨⟨t.kind, t.lexeme, next⟩ :: tokens', ?_, ?_⟩
    · rw [hspaced, hlexeme, String.toList_ofList, List.cons_append, scanFrom_cons, hchunk gap hgap,
        hscan, hrest]
      rfl
    · rw [List.map_cons, hwritten]
      rfl

/-- The lexemes of a source, but for that of its end marker, with single blanks between them. -/
def spaced (source : String) : String :=
  " ".intercalate ((before (tokenize source).1).map (·.lexeme))

/-- **The lexemes of a source, set apart by blanks, are scanned to the same tokens**: to the same
kinds with the same values, each with the same lexeme, and nothing is wrong with them. A lexeme
spells the value of its token. What is wrong with the source itself leaves no token behind, so it
makes no difference. -/
theorem tokenize_spaced (source : String) :
    (tokenize (spaced source)).2 = [] ∧
      (tokenize (spaced source)).1.map written = (tokenize source).1.map written ∧
      ∀ t ∈ (tokenize source).1, t.WellSpelled := by
  have hstands : ∀ t ∈ before (tokenize source).1, t.Stands := by
    intro t ht
    refine stands_of_scanFrom (List.takeWhile_subset _ ht) ?_
    simpa using List.all_eq_true.mp List.all_takeWhile t ht
  have hspaced : (spaced source).toList = spacedOut (before (tokenize source).1) := by
    rw [spaced, spacedOut, String.toList_intercalate, List.map_map]
    rfl
  obtain ⟨tokens, hscan, hwritten⟩ := scanFrom_spacedOut 1 _ hstands
  have htokens : tokenize (spaced source) = (tokens, []) := by
    unfold tokenize scan
    dsimp only
    rw [hspaced, hscan, List.filterMap_map, List.filterMap_map]
    exact Prod.ext List.filterMap_some (List.filterMap_none tokens)
  obtain ⟨items, hitems, hkinds⟩ := exists_scanFrom 1 source.toList
  have hsource : (tokenize source).1 = before (tokenize source).1 ++ _ :=
    (before_of_scanFrom hitems rfl hkinds).2
  rw [htokens]
  refine ⟨rfl, ?_, fun t ht => wellSpelled_of_scanFrom ht⟩
  rw [hsource, List.map_append]
  exact hwritten

end Token

end Roteiro
