import Mathlib.Data.List.TakeWhile
import Roteiro.Proofs.Token.Seam
import Roteiro.Proofs.Token.Words

/-!
# Sources with other names

In a source some of the identifiers may be written with another name. Nothing else changes for the
scan: where a chunk ends depends on the next character at most, or on the next two behind the digits
of a number; a word may begin there, but no chunk can tell with which letter.

* `Alike`: what follows a chunk looks the same to it.
* `chunk_alike`: a chunk ends in the same place in front of what looks the same.
* `tokenize_renamedAt`: the tokens are the same, except that those at the chosen places have the
  other name.
-/

namespace Roteiro

namespace Token

/-- A name: a text that is scanned as one identifier. -/
def IsName (name : String) : Prop :=
  ∃ c cs, name.toList = c :: cs ∧ chunk c cs = ⟨.token .identifier, cs, []⟩

def Reading.isIdentifier : Reading → Bool
  | .token .identifier => true
  | _ => false

/-- How many tokens it is. -/
def Reading.tokens : Reading → Nat
  | .token _ => 1
  | _ => 0

/-- A source in which the identifiers at the chosen places are written with another name. Tokens are
counted, and `place` of them have been read already. -/
def renamedFrom (chosen : Nat → Bool) (name : String) (place : Nat) : List Char → List Char
  | [] => []
  | c :: cs =>
    let k := chunk c cs
    (if k.reading.isIdentifier && chosen place then name.toList else c :: k.front) ++
      renamedFrom chosen name (place + k.reading.tokens) k.rest
termination_by cs => cs.length
decreasing_by
  have := length_chunk_rest_le c cs
  simp only [List.length_cons]
  omega

/-- A source in which the identifiers at the chosen places are written with another name. -/
def renamedAt (chosen : Nat → Bool) (name source : String) : String :=
  String.ofList (renamedFrom chosen name 0 source.toList)

/-- A token at a place, with another name if it is an identifier and the place is chosen. -/
def withName (chosen : Nat → Bool) (name : String) (place : Nat) (t : Token) : Token :=
  if t.kind = .identifier ∧ chosen place = true then { t with lexeme := name } else t

/-! ### What looks the same -/

/-- What follows a chunk looks the same to it: it starts with the same character, or both times a
word begins. Behind a point it goes on to look the same. -/
inductive Alike : List Char → List Char → Prop
  | nil : Alike [] []
  | word {c d : Char} {cs ds : List Char} (hc : beginsWord c = true) (hd : beginsWord d = true) :
    Alike (c :: cs) (d :: ds)
  | same {c : Char} {cs ds : List Char} (hc : c ≠ '.') : Alike (c :: cs) (c :: ds)
  | point {cs ds : List Char} (h : Alike cs ds) : Alike ('.' :: cs) ('.' :: ds)

/-- A character that no word begins with stands in front of both or of neither. -/
theorem Alike.head? {cs ds : List Char} (h : Alike cs ds) {x : Char} (hx : beginsWord x = false) :
    ds.head? = some x ↔ cs.head? = some x := by
  cases h with
  | nil | same | point => rfl
  | word hc hd =>
    have hne : ∀ {c : Char}, beginsWord c = true → c ≠ x := by
      rintro c hc rfl
      rw [hx] at hc
      cases hc
    simp [hne hc, hne hd]

theorem stops_dropWhile (p : Char → Bool) (cs : List Char) :
    ∀ x ∈ (cs.dropWhile p).head?, p x = false := by
  intro x hx
  have hnot := List.head?_dropWhile_not p cs
  rw [Option.mem_def.mp hx] at hnot
  simpa using hnot

/-- Where some characters end, they end in front of what looks the same, if a word never goes on
with them or always does. -/
theorem Alike.stops {p : Char → Bool} {cs ds : List Char} (h : Alike cs ds)
    (hcs : ∀ x ∈ cs.head?, p x = false) {b : Bool} (hp : ∀ c, beginsWord c = true → p c = b) :
    ∀ x ∈ ds.head?, p x = false := by
  cases h with
  | nil => exact nofun
  | word hc hd =>
    rintro x ⟨⟩
    rw [hp _ hd, ← hp _ hc]
    exact hcs _ rfl
  | same | point =>
    rintro x ⟨⟩
    exact hcs _ rfl

/-- Characters are taken up to where they stop. -/
theorem takeWhile_stop (p : Char → Bool) (cs : List Char) {ds : List Char}
    (h : ∀ x ∈ ds.head?, p x = false) :
    (cs.takeWhile p ++ ds).takeWhile p = cs.takeWhile p ∧
      (cs.takeWhile p ++ ds).dropWhile p = ds := by
  have hall : ∀ x ∈ cs.takeWhile p, p x = true := List.all_eq_true.mp List.all_takeWhile
  have hstop : ds.takeWhile p = [] ∧ ds.dropWhile p = ds := by
    cases ds with
    | nil => exact ⟨rfl, rfl⟩
    | cons d ds =>
      have hd := h d rfl
      simp [hd]
  rw [List.takeWhile_append_of_pos hall, List.dropWhile_append_of_pos hall, hstop.1, hstop.2]
  exact ⟨List.append_nil _, rfl⟩

/-! ### Where a chunk ends -/

variable {cs ds : List Char}

/-- The same chunk with other characters behind it. -/
def Chunk.inFrontOf (k : Chunk) (ds : List Char) : Chunk := ⟨k.reading, k.front, ds⟩

/-- A symbol is the short one unless the character that makes it longer follows. -/
theorem double_short {next : Char} {long short : Kind} (h : cs.head? ≠ some next) :
    double next long short cs = ⟨.token short, [], cs⟩ := by
  cases cs with
  | nil => rfl
  | cons c cs => exact if_neg fun hc => h (congrArg some hc)

theorem equalSign_short (hequal : cs.head? ≠ some '=') (harrow : cs.head? ≠ some '>') :
    equalSign cs = ⟨.token .equal, [], cs⟩ := by
  unfold equalSign
  split
  · exact absurd rfl hequal
  · exact absurd rfl harrow
  · rfl

theorem slash_short (h : cs.head? ≠ some '/') : slash cs = ⟨.token .slash, [], cs⟩ := by
  unfold slash
  split
  · exact absurd rfl h
  · rfl

theorem double_inFrontOf {next : Char} {long short : Kind}
    (h : ds.head? = some next → (double next long short cs).rest.head? = some next) :
    double next long short ((double next long short cs).front ++ ds) =
      (double next long short cs).inFrontOf ds := by
  by_cases hnext : cs.head? = some next
  · obtain ⟨es, rfl⟩ := List.head?_eq_some_iff.mp hnext
    have hlong : ∀ es, double next long short (next :: es) = ⟨.token long, [next], es⟩ :=
      fun es => if_pos rfl
    rw [hlong]
    exact hlong ds
  · rw [double_short hnext] at h ⊢
    exact double_short (mt h hnext)

theorem equalSign_inFrontOf (hequal : ds.head? = some '=' → (equalSign cs).rest.head? = some '=')
    (harrow : ds.head? = some '>' → (equalSign cs).rest.head? = some '>') :
    equalSign ((equalSign cs).front ++ ds) = (equalSign cs).inFrontOf ds := by
  by_cases hcs : cs.head? = some '='
  · obtain ⟨es, rfl⟩ := List.head?_eq_some_iff.mp hcs
    rfl
  · by_cases hcs' : cs.head? = some '>'
    · obtain ⟨es, rfl⟩ := List.head?_eq_some_iff.mp hcs'
      rfl
    · rw [equalSign_short hcs hcs'] at hequal harrow ⊢
      exact equalSign_short (mt hequal hcs) (mt harrow hcs')

theorem doubled_inFrontOf {kind : Kind} {c : Char}
    (hsound : ∀ cause, (doubled kind c cs).reading ≠ .fault cause) :
    doubled kind c ((doubled kind c cs).front ++ ds) = (doubled kind c cs).inFrontOf ds := by
  cases cs with
  | nil => exact absurd rfl (hsound _)
  | cons d cs =>
    by_cases hd : d = c
    · have hlong : ∀ es, doubled kind c (d :: es) = ⟨.token kind, [d], es⟩ := fun es => if_pos hd
      rw [hlong]
      exact hlong ds
    · have hfault : doubled kind c (d :: cs) = ⟨.fault (.unexpectedCharacter c), [], d :: cs⟩ :=
        if_neg hd
      exact absurd (congrArg Chunk.reading hfault) (hsound _)

theorem quoted_inFrontOf {quote : Char}
    (hsound : ∀ cause, (quoted quote cs).reading ≠ .fault cause) :
    quoted quote ((quoted quote cs).front ++ ds) = (quoted quote cs).inFrontOf ds := by
  cases hdrop : cs.dropWhile (· ≠ quote) with
  | nil => exact absurd (by simp only [quoted, hdrop]) (hsound .unterminatedString)
  | cons closing rest =>
    have hclosing : decide (closing ≠ quote) = false := by
      have hnot := List.head?_dropWhile_not (· ≠ quote) cs
      rw [hdrop] at hnot
      simpa using hnot
    have hstops : ∀ x ∈ (closing :: ds).head?, decide (x ≠ quote) = false := by
      rintro x ⟨⟩
      exact hclosing
    have hcut := takeWhile_stop (· ≠ quote) cs hstops
    simp only [quoted, hdrop, List.append_assoc, List.singleton_append, hcut.1, hcut.2]
    rfl

/-- The digits of a number end with those behind its point. -/
theorem numberTail_fraction {d : Char} {es : List Char}
    (hrest : cs.dropWhile Char.isDigit = '.' :: d :: es) (hd : d.isDigit = true) :
    numberTail cs = (cs.takeWhile Char.isDigit ++ '.' :: (d :: es).takeWhile Char.isDigit,
      (d :: es).dropWhile Char.isDigit) := by
  simp only [numberTail, hrest]
  exact if_pos hd

/-- The digits of a number end where no point with a digit behind it follows. -/
theorem numberTail_whole
    (h : ∀ d es, cs.dropWhile Char.isDigit = '.' :: d :: es → d.isDigit = false) :
    numberTail cs = (cs.takeWhile Char.isDigit, cs.dropWhile Char.isDigit) := by
  unfold numberTail
  dsimp only
  split
  · next d es hrest => exact if_neg (by simp [h d es hrest])
  · rfl

/-- A number has a point with digits behind it, or it ends with its first digits. -/
theorem numberTail_cases (cs : List Char) :
    (∃ d es, cs.dropWhile Char.isDigit = '.' :: d :: es ∧ d.isDigit = true ∧
      numberTail cs = (cs.takeWhile Char.isDigit ++ '.' :: (d :: es).takeWhile Char.isDigit,
        (d :: es).dropWhile Char.isDigit)) ∨
    (∀ d es, cs.dropWhile Char.isDigit = '.' :: d :: es → d.isDigit = false) ∧
      numberTail cs = (cs.takeWhile Char.isDigit, cs.dropWhile Char.isDigit) := by
  by_cases hfraction : ∃ d es, cs.dropWhile Char.isDigit = '.' :: d :: es ∧ d.isDigit = true
  · obtain ⟨d, es, hrest, hd⟩ := hfraction
    exact Or.inl ⟨d, es, hrest, hd, numberTail_fraction hrest hd⟩
  · have hnone : ∀ d es, cs.dropWhile Char.isDigit = '.' :: d :: es → d.isDigit = false :=
      fun d es hrest => Bool.eq_false_iff.mpr fun hd => hfraction ⟨d, es, hrest, hd⟩
    exact Or.inr ⟨hnone, numberTail_whole hnone⟩

theorem stops_numberTail : ∀ x ∈ (numberTail cs).2.head?, x.isDigit = false := by
  obtain ⟨d, es, -, -, htail⟩ | ⟨-, htail⟩ := numberTail_cases cs
  · rw [htail]
    exact stops_dropWhile _ _
  · rw [htail]
    exact stops_dropWhile _ _

theorem numberTail_inFrontOf (hstops : ∀ x ∈ ds.head?, x.isDigit = false)
    (hpoint : ∀ d es, ds = '.' :: d :: es → d.isDigit = true →
      ∃ d' es', (numberTail cs).2 = '.' :: d' :: es' ∧ d'.isDigit = true) :
    numberTail ((numberTail cs).1 ++ ds) = ((numberTail cs).1, ds) := by
  obtain ⟨d, es, -, hd, htail⟩ | ⟨hnone, htail⟩ := numberTail_cases cs
  · rw [htail]
    let behind := es.takeWhile Char.isDigit ++ ds
    have hbehind : (d :: behind).takeWhile Char.isDigit = d :: es.takeWhile Char.isDigit ∧
        (d :: behind).dropWhile Char.isDigit = ds := by
      have hcut := takeWhile_stop Char.isDigit (d :: es) hstops
      rwa [List.takeWhile_cons_of_pos hd] at hcut
    have hfirst : ∀ x ∈ ('.' :: d :: behind).head?, x.isDigit = false := by
      rintro x ⟨⟩
      decide
    have hwhole := takeWhile_stop Char.isDigit cs hfirst
    have hagain := numberTail_fraction hwhole.2 hd
    rw [hwhole.1, hbehind.1, hbehind.2] at hagain
    rw [List.takeWhile_cons_of_pos hd, List.append_assoc]
    exact hagain
  · rw [htail] at hpoint ⊢
    have hcut := takeWhile_stop Char.isDigit cs hstops
    rw [numberTail_whole, hcut.1, hcut.2]
    -- behind a point there is a digit only if there was one before
    rw [hcut.2]
    intro d es hds
    refine Bool.eq_false_iff.mpr fun hd => ?_
    obtain ⟨d', es', hrest, hd'⟩ := hpoint d es hds hd
    rw [hnone d' es' hrest] at hd'
    cases hd'

theorem number_inFrontOf {c : Char} (hstops : ∀ x ∈ ds.head?, x.isDigit = false)
    (hpoint : ∀ d es, ds = '.' :: d :: es → d.isDigit = true →
      ∃ d' es', (number c cs).rest = '.' :: d' :: es' ∧ d'.isDigit = true) :
    number c ((number c cs).front ++ ds) = (number c cs).inFrontOf ds := by
  have htail : numberTail ((numberTail cs).1 ++ ds) = ((numberTail cs).1, ds) :=
    numberTail_inFrontOf hstops hpoint
  simp only [number]
  rw [htail]
  rfl

theorem word_inFrontOf {c : Char} (hstops : ∀ x ∈ ds.head?, Text.isNameChar x = false) :
    word c ((word c cs).front ++ ds) = (word c cs).inFrontOf ds := by
  have hcut := takeWhile_stop Text.isNameChar cs hstops
  simp only [word, hcut.1, hcut.2]
  rfl

/-! ### Chunks in front of what looks the same -/

theorem slash_alike (h : Alike (slash cs).rest ds) :
    slash ((slash cs).front ++ ds) = (slash cs).inFrontOf ds := by
  by_cases hslash : cs.head? = some '/'
  · obtain ⟨es, rfl⟩ := List.head?_eq_some_iff.mp hslash
    -- a comment ends in front of a newline, with which no word begins
    have hword : ∀ c : Char, beginsWord c = true → decide (c ≠ '\n') = true := by
      rintro c hc
      refine decide_eq_true ?_
      rintro rfl
      exact absurd hc (by decide +kernel)
    have hcut := takeWhile_stop (· ≠ '\n') ('/' :: es) (h.stops (stops_dropWhile _ _) hword)
    have hfirst : ('/' :: es).takeWhile (· ≠ '\n') = '/' :: es.takeWhile (· ≠ '\n') :=
      List.takeWhile_cons_of_pos (by decide)
    have hcomment : ∀ fs, slash ('/' :: fs) =
        ⟨.skip, ('/' :: fs).takeWhile (· ≠ '\n'), ('/' :: fs).dropWhile (· ≠ '\n')⟩ := fun _ => rfl
    rw [hcomment es]
    dsimp only [Chunk.inFrontOf]
    rw [hfirst] at hcut ⊢
    rw [List.cons_append] at hcut ⊢
    rw [hcomment, hcut.1, hcut.2]
  · rw [slash_short hslash] at h ⊢
    exact slash_short (mt (h.head? (by decide +kernel)).mp hslash)

/-- What looks the same goes on with a number in the same way. -/
theorem Alike.point_digit {d : Char} {es : List Char} (h : Alike cs ('.' :: d :: es))
    (hd : d.isDigit = true) : ∃ d' es', cs = '.' :: d' :: es' ∧ d'.isDigit = true := by
  cases h with
  | word _ hpoint => exact absurd hpoint (by decide +kernel)
  | same hc => exact absurd rfl hc
  | point h =>
    cases h with
    | word _ hword =>
      rw [isDigit_of_beginsWord hword] at hd
      cases hd
    | same _ => exact ⟨_, _, rfl, hd⟩
    | point => cases hd

/-- **A chunk ends in the same place in front of what looks the same.** -/
theorem chunk_alike {c : Char} (hsound : ∀ cause, (chunk c cs).reading ≠ .fault cause)
    (h : Alike (chunk c cs).rest ds) :
    chunk c ((chunk c cs).front ++ ds) = (chunk c cs).inFrontOf ds := by
  by_cases hdigit : c.isDigit = true
  · simp only [chunk_of_isDigit hdigit] at h ⊢
    refine number_inFrontOf (h.stops stops_numberTail fun _ => isDigit_of_beginsWord) ?_
    rintro d es rfl hd
    exact h.point_digit hd
  · by_cases hword : beginsWord c = true
    · simp only [chunk_of_beginsWord hword] at h ⊢
      exact word_inFrontOf (h.stops (stops_dropWhile _ cs) fun _ => isNameChar_of_beginsWord)
    · revert hsound h
      unfold chunk
      split <;> intro hsound h
      case h_14 | h_15 | h_16 | h_17 | h_18 =>
        exact double_inFrontOf (h.head? (by decide +kernel)).mp
      case h_19 =>
        exact equalSign_inFrontOf (h.head? (by decide +kernel)).mp
          (h.head? (by decide +kernel)).mp
      case h_20 | h_21 => exact doubled_inFrontOf hsound
      case h_26 => exact slash_alike h
      case h_27 | h_28 => exact quoted_inFrontOf hsound
      case h_29 =>
        have hletter : Text.isLetter c ≠ true := fun hletter => hword (by simp [beginsWord, *])
        rw [if_neg hdigit, if_neg hletter] at hsound
        exact absurd rfl (hsound _)
      all_goals rfl

/-! ### Names in the place of others -/

variable {chosen : Nat → Bool} {name : String}

theorem isName_of_isIdentifier {reading : Reading} (h : reading.isIdentifier = true) :
    reading = .token .identifier ∧ reading.isName = true := by
  unfold Reading.isIdentifier at h
  split at h
  · exact ⟨rfl, rfl⟩
  · cases h

theorem renamedFrom_cons (place : Nat) (c : Char) (cs : List Char) :
    renamedFrom chosen name place (c :: cs) =
      (if (chunk c cs).reading.isIdentifier && chosen place then name.toList
        else c :: (chunk c cs).front) ++
        renamedFrom chosen name (place + (chunk c cs).reading.tokens) (chunk c cs).rest := by
  rw [renamedFrom]

/-- A name is a word, up to its end. -/
theorem IsName.exists_word (h : IsName name) : ∃ c cs, name.toList = c :: cs ∧
    beginsWord c = true ∧ (∀ d ∈ cs, Text.isNameChar d = true) ∧
      Kind.ofWord name = .identifier := by
  obtain ⟨c, cs, hname, hchunk⟩ := h
  have hbegins : beginsWord c = true := beginsWord_of_isName (by rw [hchunk]; rfl)
  rw [chunk_of_beginsWord hbegins] at hchunk
  have hfront : cs.takeWhile Text.isNameChar = cs := congrArg Chunk.front hchunk
  have hkind : Kind.ofWord (String.ofList (c :: cs.takeWhile Text.isNameChar)) = .identifier :=
    Reading.token.inj (congrArg Chunk.reading hchunk)
  rw [hfront, ← hname, String.ofList_toList] at hkind
  exact ⟨c, cs, hname, hbegins, List.takeWhile_eq_self_iff.mp hfront, hkind⟩

theorem IsName.ofWord (h : IsName name) : Kind.ofWord name = .identifier := by
  obtain ⟨c, cs, -, -, -, hkind⟩ := h.exists_word
  exact hkind

/-- A source looks the same with other names in it. -/
theorem alike_renamedFrom (hname : IsName name) (place : Nat) (cs : List Char) :
    Alike cs (renamedFrom chosen name place cs) := by
  induction place, cs using renamedFrom.induct with
  | case1 place =>
    rw [renamedFrom]
    exact .nil
  | case2 place c cs k ih =>
    obtain ⟨d, ds, hlist, hbegins, -, -⟩ := hname.exists_word
    rw [renamedFrom_cons]
    split
    · next hrenamed =>
      have hidentifier := isName_of_isIdentifier ((Bool.and_eq_true _ _).mp hrenamed).1
      rw [hlist]
      exact .word (beginsWord_of_isName hidentifier.2) hbegins
    · by_cases hpoint : c = '.'
      · subst hpoint
        exact .point ih
      · exact .same hpoint

/-- There is no newline in a word. -/
theorem newlines_word {c : Char} (hc : beginsWord c = true) {cs : List Char}
    (hcs : ∀ d ∈ cs, Text.isNameChar d = true) : newlines (c :: cs) = 0 := by
  refine List.count_eq_zero.mpr fun hmem => ?_
  have hnewline : Text.isNameChar '\n' = false := by decide +kernel
  have hall : ∀ d ∈ c :: cs, Text.isNameChar d = true :=
    List.forall_mem_cons.mpr ⟨isNameChar_of_beginsWord hc, hcs⟩
  have hno := hall _ hmem
  rw [hnewline] at hno
  cases hno

/-- The first item of a renamed source is that of the source, except for its name, and the rest of
the source is renamed behind it. -/
theorem scanFrom_renamedFrom_cons (chosen : Nat → Bool) (hname : IsName name) (line place : Nat)
    (c : Char) (cs : List Char) (hsound : ∀ cause, (chunk c cs).reading ≠ .fault cause) :
    let k := chunk c cs
    let next := line + newlines (c :: k.front)
    let rest := renamedFrom chosen name (place + k.reading.tokens) k.rest
    scanFrom line (renamedFrom chosen name place (c :: cs)) =
      match k.reading with
      | .token kind =>
        .token (withName chosen name place ⟨kind, String.ofList (c :: k.front), next⟩) ::
          scanFrom next rest
      | _ => scanFrom next rest := by
  intro k next rest
  have halike : Alike k.rest rest := alike_renamedFrom hname _ k.rest
  rw [renamedFrom_cons]
  split
  · next hrenamed =>
    -- the name is a word in front of what no word goes on with
    obtain ⟨hidentifier, hchosen⟩ := (Bool.and_eq_true _ _).mp hrenamed
    obtain ⟨hreading, hisName⟩ := isName_of_isIdentifier hidentifier
    obtain ⟨d, ds, hlist, hbegins, hds, hkind⟩ := hname.exists_word
    have hword : k = word c cs := chunk_of_beginsWord (beginsWord_of_isName hisName) cs
    have hstops : ∀ x ∈ rest.head?, Text.isNameChar x = false := by
      rw [hword] at halike
      exact halike.stops (stops_dropWhile _ cs) fun _ => isNameChar_of_beginsWord
    have hcut := takeWhile_stop Text.isNameChar ds hstops
    rw [List.takeWhile_eq_self_iff.mpr hds] at hcut
    have hchunk : chunk d (ds ++ rest) = ⟨.token .identifier, ds, rest⟩ := by
      rw [chunk_of_beginsWord hbegins, word]
      simp only [hcut.1, hcut.2, ← hlist, String.ofList_toList, hkind]
    have hnext : next = line + newlines (d :: ds) := by
      have hfront : ∀ x ∈ k.front, Text.isNameChar x = true := by
        rw [hword]
        exact List.all_eq_true.mp List.all_takeWhile
      show line + newlines (c :: k.front) = _
      rw [newlines_word (beginsWord_of_isName hisName) hfront, newlines_word hbegins hds]
    show scanFrom line (name.toList ++ rest) = _
    rw [hlist, List.cons_append, scanFrom_cons, hchunk, ← hnext, hreading]
    simp only [Chunk.item?, withName, hchosen, ← hlist, String.ofList_toList]
    rfl
  · next hsame =>
    have hchunk : chunk c (k.front ++ rest) = k.inFrontOf rest := chunk_alike hsound halike
    rw [List.cons_append, scanFrom_cons, hchunk]
    have hkept : ∀ kind, k.reading = .token kind → ∀ lexeme line,
        withName chosen name place ⟨kind, lexeme, line⟩ = ⟨kind, lexeme, line⟩ := by
      intro kind hreading lexeme line
      refine if_neg ?_
      rintro ⟨rfl, hchosen⟩
      exact hsame (by rw [hreading, hchosen]; rfl)
    have hitem : (k.inFrontOf rest).item? c next = k.item? c next := rfl
    show ((k.inFrontOf rest).item? c next).toList ++ scanFrom next rest = _
    rw [hitem]
    unfold Chunk.item?
    cases hreading : k.reading with
    | skip => rfl
    | token kind =>
      simp only [hkept kind hreading]
      rfl
    | fault cause => exact absurd hreading (hsound cause)

theorem scanFrom_renamedFrom (chosen : Nat → Bool) (hname : IsName name) (line place : Nat)
    (cs : List Char)
    (h : (scanFrom line cs).filterMap Item.report? = []) :
    (scanFrom line (renamedFrom chosen name place cs)).filterMap Item.token? =
      ((scanFrom line cs).filterMap Item.token?).mapIdx
        (fun k => withName chosen name (place + k)) ∧
    (scanFrom line (renamedFrom chosen name place cs)).filterMap Item.report? = [] := by
  induction line, cs using scanFrom.induct generalizing place with
  | case1 line =>
    rw [renamedFrom, scanFrom]
    exact ⟨rfl, rfl⟩
  | case2 line c cs k next ih =>
    rw [scanFrom_cons, List.filterMap_append, List.append_eq_nil_iff] at h
    obtain ⟨hfirst, hrest⟩ := h
    have hsound : ∀ cause, k.reading ≠ .fault cause := by
      intro cause hcause
      simp only [Chunk.item?, show (chunk c cs).reading = _ from hcause] at hfirst
      cases hfirst
    obtain ⟨ihtokens, ihreports⟩ := ih (place + k.reading.tokens) hrest
    have hcons := scanFrom_renamedFrom_cons chosen hname line place c cs hsound
    have hitems := scanFrom_cons line c cs
    dsimp only at hcons
    unfold Chunk.item? at hitems
    cases hreading : k.reading with
    | skip =>
      simp only [show (chunk c cs).reading = _ from hreading] at hcons hitems
      rw [hcons, hitems]
      have hplace : place + k.reading.tokens = place := by rw [hreading]; rfl
      rw [hplace] at ihtokens ihreports
      exact ⟨ihtokens, ihreports⟩
    | token kind =>
      simp only [show (chunk c cs).reading = _ from hreading] at hcons hitems
      rw [hcons, hitems]
      have hplace : place + k.reading.tokens = place + 1 := by rw [hreading]; rfl
      rw [hplace] at ihtokens ihreports
      refine ⟨?_, ihreports⟩
      have hshift : (fun i => withName chosen name (place + (i + 1))) =
          fun i => withName chosen name (place + 1 + i) := by
        funext i
        rw [Nat.add_comm i 1, Nat.add_assoc]
      simp only [Option.toList_some, List.singleton_append, List.filterMap_cons, Item.token?,
        List.mapIdx_cons, hshift]
      exact congrArg _ ihtokens
    | fault cause => exact absurd hreading (hsound cause)

/-- **A renamed source has the same tokens**, except that those at the chosen places have the other
name. -/
theorem tokenize_renamedAt (hname : IsName name) {source : String}
    (h : (tokenize source).2 = []) :
    tokenize (renamedAt chosen name source) =
      ((tokenize source).1.mapIdx (withName chosen name), []) := by
  have hscan := scanFrom_renamedFrom chosen hname 1 0 source.toList h
  simp only [Nat.zero_add] at hscan
  unfold tokenize scan renamedAt
  rw [String.toList_ofList]
  exact Prod.ext hscan.1 hscan.2

end Token

end Roteiro
