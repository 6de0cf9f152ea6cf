import Roteiro.Proofs.Tree.Twins
import Roteiro.Token.Scan

/-!
# Scanning one text behind another

A newline ends every chunk except a text in quotes, and a text in quotes is wrong where its closing
quote is missing. So if no quote is missing in a source, then another one that follows it behind a
newline is scanned as if it stood alone, but for its lines. Characters that start nothing make no
difference: each of them is a chunk of its own.

* `scan_newline`: the items of two sources with a newline between them.
* `tokenize_append`: the tokens of two sources with a newline between them.
* `line_of_mem_tokenize`: the lines of a source.
* `tokenizeFrom_twins`: on other lines, a source has the same tokens.
-/

namespace Roteiro

namespace Token

/-! ### Chunks in front of a newline -/

/-- The same chunk in front of more characters. -/
def Chunk.followedBy (k : Chunk) (more : List Char) : Chunk := { k with rest := k.rest ++ more }

section Chunks

variable {p : Char → Bool} {c : Char} (cs ds : List Char)

/-- What is taken up to some character ends there. -/
theorem takeWhile_append_cons (hc : p c = false) :
    (cs ++ c :: ds).takeWhile p = cs.takeWhile p ∧
      (cs ++ c :: ds).dropWhile p = cs.dropWhile p ++ c :: ds := by
  induction cs with
  | nil => simp [hc]
  | cons x cs ih =>
    rw [List.cons_append]
    by_cases hx : p x = true
    · rw [List.takeWhile_cons_of_pos hx, List.takeWhile_cons_of_pos hx,
        List.dropWhile_cons_of_pos hx, List.dropWhile_cons_of_pos hx, ih.1, ih.2]
      exact ⟨rfl, rfl⟩
    · rw [List.takeWhile_cons_of_neg hx, List.takeWhile_cons_of_neg hx,
        List.dropWhile_cons_of_neg hx, List.dropWhile_cons_of_neg hx]
      exact ⟨rfl, rfl⟩

theorem double_newline (next : Char) (hnext : '\n' ≠ next) (long short : Kind) :
    double next long short (cs ++ '\n' :: ds) =
      (double next long short cs).followedBy ('\n' :: ds) := by
  cases cs with
  | nil => simp [double, Chunk.followedBy, hnext]
  | cons c cs =>
    simp only [double, List.cons_append]
    split <;> rfl

theorem equalSign_newline :
    equalSign (cs ++ '\n' :: ds) = (equalSign cs).followedBy ('\n' :: ds) := by
  fun_cases equalSign cs with
  | case1 => rfl
  | case2 => rfl
  | case3 h h' =>
    cases cs with
    | nil => rfl
    | cons c cs => simp_all [equalSign, Chunk.followedBy]

theorem doubled_newline (kind : Kind) (c : Char) (hc : '\n' ≠ c) :
    doubled kind c (cs ++ '\n' :: ds) = (doubled kind c cs).followedBy ('\n' :: ds) := by
  cases cs with
  | nil => simp [doubled, Chunk.followedBy, hc]
  | cons c cs =>
    simp only [doubled, List.cons_append]
    split <;> rfl

theorem slash_newline : slash (cs ++ '\n' :: ds) = (slash cs).followedBy ('\n' :: ds) := by
  have hline := takeWhile_append_cons cs ds (p := (· ≠ '\n')) (c := '\n') (by decide)
  fun_cases slash cs with
  | case1 =>
    rw [List.cons_append] at hline ⊢
    simp only [slash, hline.1, hline.2]
    rfl
  | case2 h =>
    cases cs with
    | nil => rfl
    | cons c cs => simp_all [slash, Chunk.followedBy]

/-- What is taken up to some character does not depend on what follows that character. -/
theorem takeWhile_append_of_dropWhile {x : Char} {rest : List Char}
    (h : cs.dropWhile p = x :: rest) :
    (cs ++ ds).takeWhile p = cs.takeWhile p ∧ (cs ++ ds).dropWhile p = x :: (rest ++ ds) := by
  induction cs with
  | nil => cases h
  | cons y cs ih =>
    rw [List.cons_append]
    by_cases hy : p y = true
    · rw [List.dropWhile_cons_of_pos hy] at h
      rw [List.takeWhile_cons_of_pos hy, List.takeWhile_cons_of_pos hy,
        List.dropWhile_cons_of_pos hy, (ih h).1, (ih h).2]
      exact ⟨rfl, rfl⟩
    · rw [List.dropWhile_cons_of_neg hy] at h
      rw [List.takeWhile_cons_of_neg hy, List.takeWhile_cons_of_neg hy,
        List.dropWhile_cons_of_neg hy]
      cases h
      exact ⟨rfl, rfl⟩

/-- A text with its closing quote ends there, whatever follows. -/
theorem quoted_append_right (quote : Char)
    (h : (quoted quote cs).reading ≠ .fault .unterminatedString) :
    quoted quote (cs ++ ds) = (quoted quote cs).followedBy ds := by
  cases hdrop : cs.dropWhile (· ≠ quote) with
  | nil => exact absurd (by simp only [quoted, hdrop]) h
  | cons closing rest =>
    obtain ⟨hbody, hrest⟩ := takeWhile_append_of_dropWhile cs ds hdrop
    simp only [quoted, hdrop, hbody, hrest]
    rfl

theorem numberTail_newline : numberTail (cs ++ '\n' :: ds) =
    ((numberTail cs).1, (numberTail cs).2 ++ '\n' :: ds) := by
  have hdigits := fun es => takeWhile_append_cons es ds (p := Char.isDigit) (c := '\n') (by decide)
  unfold numberTail
  rw [(hdigits cs).1, (hdigits cs).2]
  cases hrest : cs.dropWhile Char.isDigit with
  | nil => rfl
  | cons x rest =>
    by_cases hx : x = '.'
    · subst hx
      cases rest with
      | nil => rfl
      | cons d es =>
        simp only [List.cons_append]
        split
        · rw [← List.cons_append, (hdigits (d :: es)).1, (hdigits (d :: es)).2]
        · rfl
    · simp [hx]

theorem number_newline (c : Char) :
    number c (cs ++ '\n' :: ds) = (number c cs).followedBy ('\n' :: ds) := by
  simp only [number, numberTail_newline]
  rfl

theorem word_newline (c : Char) :
    word c (cs ++ '\n' :: ds) = (word c cs).followedBy ('\n' :: ds) := by
  have hname := takeWhile_append_cons cs ds (p := Text.isNameChar) (c := '\n') (by decide +kernel)
  simp only [word, hname.1, hname.2]
  rfl

/-- **A newline ends a chunk**, unless a closing quote is missing there. -/
theorem chunk_newline (c : Char) (h : (chunk c cs).reading ≠ .fault .unterminatedString) :
    chunk c (cs ++ '\n' :: ds) = (chunk c cs).followedBy ('\n' :: ds) := by
  unfold chunk at h ⊢
  split
  case h_14 | h_15 | h_16 | h_17 | h_18 => exact double_newline _ _ _ (by decide) _ _
  case h_19 => exact equalSign_newline _ _
  case h_20 | h_21 => exact doubled_newline _ _ _ _ (by decide)
  case h_26 => exact slash_newline _ _
  case h_27 | h_28 => exact quoted_append_right _ _ _ h
  case h_29 =>
    split
    · exact number_newline _ _ _
    · split
      · exact word_newline _ _ _
      · rfl
  all_goals rfl

end Chunks

/-! ### End markers -/

theorem ofWord_ne_endOfInput (text : String) : Kind.ofWord text ≠ .endOfInput := by
  unfold Kind.ofWord
  cases hfound : Kind.keywords.lookup text with
  | none => exact Kind.noConfusion
  | some kind =>
    obtain ⟨front, rest, hsplit, -⟩ := List.lookup_eq_some_iff.mp hfound
    have hkeywords : ∀ p ∈ Kind.keywords, p.2 ≠ .endOfInput := by decide +kernel
    exact hkeywords (text, kind) (by rw [hsplit]; simp)

/-- No chunk is an end marker. -/
theorem chunk_ne_endOfInput (c : Char) (cs : List Char) :
    (chunk c cs).reading ≠ .token .endOfInput := by
  unfold chunk
  split
  case h_14 | h_15 | h_16 | h_17 | h_18 =>
    unfold double
    split
    · split <;> simp
    · simp
  case h_19 =>
    unfold equalSign
    split <;> simp
  case h_20 | h_21 =>
    unfold doubled
    split
    · split <;> simp
    · simp
  case h_26 =>
    unfold slash
    split <;> simp
  case h_27 | h_28 =>
    unfold quoted
    dsimp only
    split <;> simp
  case h_29 =>
    split
    · simp [number]
    · split
      · simpa [word] using ofWord_ne_endOfInput _
      · simp
  all_goals simp [single]

/-- The tokens in front of the first end marker. -/
def before (tokens : List Token) : List Token := tokens.takeWhile (·.kind ≠ .endOfInput)

/-- The tokens of a source of which the first line has the given number, and the complaints. -/
def tokenizeFrom (line : Nat) (source : String) : List Token × List Report :=
  let items := scanFrom line source.toList
  (items.filterMap Item.token?, items.filterMap Item.report?)

theorem tokenize_eq (source : String) : tokenize source = tokenizeFrom 1 source := rfl

theorem newlines_append (cs ds : List Char) : newlines (cs ++ ds) = newlines cs + newlines ds :=
  List.count_append

/-- The lines of a chunk and those of the rest. -/
theorem newlines_chunk (c : Char) (cs : List Char) :
    newlines (c :: cs) = newlines (c :: (chunk c cs).front) + newlines (chunk c cs).rest := by
  rw [← newlines_append, List.cons_append, chunk_append]

/-- A source is scanned to the tokens of its chunks and one end marker behind them. -/
theorem exists_scanFrom (line : Nat) (cs : List Char) :
    ∃ items, scanFrom line cs = items ++ [.token ⟨.endOfInput, "", line + newlines cs⟩] ∧
      ∀ t, .token t ∈ items → t.kind ≠ .endOfInput := by
  induction line, cs using scanFrom.induct with
  | case1 line => exact ⟨[], by rw [scanFrom]; rfl, nofun⟩
  | case2 line c cs k line' ih =>
    obtain ⟨items, hitems, hkinds⟩ := ih
    refine ⟨(k.item? c line').toList ++ items, ?_, fun t ht => ?_⟩
    · rw [scanFrom, hitems, List.append_assoc, newlines_chunk c cs, ← Nat.add_assoc]
    · rcases List.mem_append.mp ht with hfirst | hrest
      · intro hkind
        rw [Option.mem_toList] at hfirst
        unfold Chunk.item? at hfirst
        split at hfirst
        · cases hfirst
        · next kind hreading =>
          cases hfirst
          exact chunk_ne_endOfInput c cs (hreading.trans (congrArg Reading.token hkind))
        · cases hfirst
      · exact hkinds t hrest

theorem before_of_scanFrom {line : Nat} {source : String} {items : List Item} {ending : Token}
    (hitems : scanFrom line source.toList = items ++ [.token ending])
    (hending : ending.kind = .endOfInput) (hkinds : ∀ t, .token t ∈ items → t.kind ≠ .endOfInput) :
    before (tokenizeFrom line source).1 = items.filterMap Item.token? ∧
      (tokenizeFrom line source).1 = before (tokenizeFrom line source).1 ++ [ending] := by
  have htokens : (tokenizeFrom line source).1 = items.filterMap Item.token? ++ [ending] := by
    show (scanFrom line source.toList).filterMap Item.token? = _
    rw [hitems, List.filterMap_append]
    rfl
  have hall : ∀ t ∈ items.filterMap Item.token?, decide (t.kind ≠ .endOfInput) = true := by
    intro t ht
    obtain ⟨item, hitem, htoken⟩ := List.mem_filterMap.mp ht
    cases item with
    | token t' =>
      cases htoken
      simpa using hkinds _ hitem
    | fault => cases htoken
  have hbefore : before (tokenizeFrom line source).1 = items.filterMap Item.token? := by
    rw [before, htokens, List.takeWhile_append_of_pos hall]
    simp [hending]
  exact ⟨hbefore, by rw [hbefore, htokens]⟩

/-- The end marker is the last token of a source. -/
theorem exists_before (line : Nat) (source : String) : ∃ ending : Token,
    (tokenizeFrom line source).1 = before (tokenizeFrom line source).1 ++ [ending] := by
  obtain ⟨items, hitems, hkinds⟩ := exists_scanFrom line source.toList
  exact ⟨_, (before_of_scanFrom hitems rfl hkinds).2⟩

/-! ### Sources behind a newline -/

/-- The items of a chunk and those of the rest. -/
theorem scanFrom_cons (line : Nat) (c : Char) (cs : List Char) :
    scanFrom line (c :: cs) =
      ((chunk c cs).item? c (line + newlines (c :: (chunk c cs).front))).toList ++
        scanFrom (line + newlines (c :: (chunk c cs).front)) (chunk c cs).rest := by
  rw [scanFrom]

/-- Where no closing quote is missing, what stands behind a newline is scanned on its own. -/
theorem scanFrom_append (line : Nat) (cs ds : List Char)
    (h : ∀ l, .fault l .unterminatedString ∉ scanFrom line cs) :
    scanFrom line (cs ++ '\n' :: ds) =
      (scanFrom line cs).dropLast ++ scanFrom (line + newlines cs + 1) ds := by
  induction line, cs using scanFrom.induct with
  | case1 line =>
    have hnewline : chunk '\n' ds = ⟨.skip, [], ds⟩ := rfl
    rw [List.nil_append, scanFrom_cons, hnewline, scanFrom.eq_1]
    rfl
  | case2 line c cs k line' ih =>
    rw [scanFrom_cons] at h
    -- a quote that is not closed would be complained about
    have hclosed : (chunk c cs).reading ≠ .fault .unterminatedString := by
      intro hopen
      refine h line' (List.mem_append_left _ ?_)
      simp only [Chunk.item?, hopen, Option.toList_some, List.mem_singleton]
      rfl
    -- the end marker stands at the end of the rest, and not behind this chunk
    have hne : scanFrom line' k.rest ≠ [] := by
      obtain ⟨items, hitems, -⟩ := exists_scanFrom line' k.rest
      rw [hitems]
      exact List.append_ne_nil_of_right_ne_nil _ (List.cons_ne_nil _ _)
    have hbehind := ih fun l hl => h l (List.mem_append_right _ hl)
    rw [List.cons_append, scanFrom_cons line c (cs ++ _), chunk_newline cs ds c hclosed,
      scanFrom_cons line c cs, List.dropLast_append_of_ne_nil hne, newlines_chunk c cs,
      List.append_assoc, ← Nat.add_assoc]
    exact congrArg _ hbehind

/-- The same item, so many lines further down. -/
def Item.lowered (n : Nat) : Item → Item
  | .token t => .token { t with line := t.line + n }
  | .fault line cause => .fault (line + n) cause

/-- Whether an item is an end marker. -/
def Item.isEnding : Item → Bool
  | .token t => t.kind = .endOfInput
  | .fault _ _ => false

theorem toList_newline (a b : String) : (a ++ "\n" ++ b).toList = a.toList ++ '\n' :: b.toList := by
  simp [String.toList_append]

/-- The line of an item is counted from the line on which the source starts. -/
theorem scanFrom_add (line n : Nat) (cs : List Char) :
    scanFrom (line + n) cs = (scanFrom line cs).map (Item.lowered n) := by
  induction line, cs using scanFrom.induct with
  | case1 line =>
    rw [scanFrom.eq_1, scanFrom.eq_1]
    rfl
  | case2 line c cs k next ih =>
    have hnext : line + n + newlines (c :: k.front) = next + n := Nat.add_right_comm line n _
    have hitem : k.item? c (next + n) = (k.item? c next).map (Item.lowered n) := by
      unfold Chunk.item?
      split <;> rfl
    rw [scanFrom_cons, scanFrom_cons, hnext, ih, hitem, List.map_append, Option.toList_map]

/-- The end marker is the last item, so without it there is one item less. -/
theorem filter_scanFrom (line : Nat) (cs : List Char) :
    (scanFrom line cs).filter (!·.isEnding) = (scanFrom line cs).dropLast := by
  obtain ⟨items, hitems, hkinds⟩ := exists_scanFrom line cs
  have hkept : ∀ item ∈ items, (!item.isEnding) = true := by
    intro item hitem
    cases item with
    | token t => simpa [Item.isEnding] using hkinds t hitem
    | fault => rfl
  rw [hitems, List.dropLast_concat, List.filter_append, List.filter_eq_self.mpr hkept]
  exact List.append_nil items

/-- **The items of two sources with a newline between them** are those of the first one but for its
end marker, and then those of the second one, lowered by the lines of the first one. A quote that is
not closed in the first source would reach into the second one; nothing else does. -/
theorem scan_newline (a b : String) (h : ∀ line, .fault line .unterminatedString ∉ scan a) :
    scan (a ++ "\n" ++ b) = (scan a).filter (!·.isEnding) ++
      (scan b).map (Item.lowered (1 + newlines a.toList)) := by
  calc scan (a ++ "\n" ++ b)
      = scanFrom 1 (a.toList ++ '\n' :: b.toList) := by rw [scan, toList_newline]
    _ = (scanFrom 1 a.toList).dropLast ++ scanFrom (1 + newlines a.toList + 1) b.toList :=
        scanFrom_append 1 a.toList b.toList h
    _ = (scan a).filter (!·.isEnding) ++ (scan b).map (Item.lowered (1 + newlines a.toList)) := by
        rw [scan, scan, filter_scanFrom, Nat.add_comm _ 1, scanFrom_add]

/-- A stray character, an operator that could have been longer and a comment that is open up to the
end, in front of a text that is not closed. -/
theorem openEnds_scan_newline :
    (∀ line, .fault line .unterminatedString ∉ scan "1.\n& x+//") ∧
      scan ("1.\n& x+//" ++ "\n" ++ "+\n\"y") =
        [.token ⟨.number (Decimal.nearest 1 0), "1", 1⟩, .token ⟨.dot, ".", 1⟩,
          .fault 2 (.unexpectedCharacter '&'), .token ⟨.identifier, "x", 2⟩,
          .token ⟨.plus, "+", 2⟩, .token ⟨.plus, "+", 3⟩, .fault 4 .unterminatedString,
          .token ⟨.endOfInput, "", 4⟩] := by
  have hfirst : scan "1.\n& x+//" =
      [.token ⟨.number (Decimal.nearest 1 0), "1", 1⟩, .token ⟨.dot, ".", 1⟩,
        .fault 2 (.unexpectedCharacter '&'), .token ⟨.identifier, "x", 2⟩, .token ⟨.plus, "+", 2⟩,
        .token ⟨.endOfInput, "", 2⟩] := by
    decide +kernel
  have hclosed : ∀ line, .fault line .unterminatedString ∉ scan "1.\n& x+//" := by
    rw [hfirst]
    simp
  refine ⟨hclosed, ?_⟩
  rw [scan_newline _ _ hclosed, hfirst]
  decide +kernel

/-- **The tokens of two sources with a newline between them** are those of the first one and then
those of the second one, on lines that follow those of the first. -/
theorem tokenize_append (a b : String) (h : (tokenize a).2 = []) :
    tokenize (a ++ "\n" ++ b) =
      (before (tokenize a).1 ++ (tokenizeFrom (newlines a.toList + 2) b).1,
        (tokenizeFrom (newlines a.toList + 2) b).2) := by
  obtain ⟨items, hitems, hkinds⟩ := exists_scanFrom 1 a.toList
  have hfaults : (scanFrom 1 a.toList).filterMap Item.report? = [] := h
  have hclosed : ∀ l, .fault l .unterminatedString ∉ scanFrom 1 a.toList := fun l hl =>
    Option.some_ne_none _ (List.filterMap_eq_nil_iff.mp hfaults _ hl)
  have hscan := scanFrom_append 1 a.toList b.toList hclosed
  rw [hitems, List.dropLast_concat] at hscan
  have hbefore : before (tokenize a).1 = items.filterMap Item.token? :=
    (before_of_scanFrom hitems rfl hkinds).1
  have hreports : items.filterMap Item.report? = [] := by
    rw [hitems, List.filterMap_append, List.append_eq_nil_iff] at hfaults
    exact hfaults.1
  have hline : 1 + newlines a.toList + 1 = newlines a.toList + 2 := by omega
  rw [hline] at hscan
  rw [tokenize_eq, hbefore]
  unfold tokenizeFrom
  simp only [toList_newline, hscan, List.filterMap_append, hreports, List.nil_append]

/-! ### The lines of a source -/

/-- The line of an item. -/
def Item.line : Item → Nat
  | .token t => t.line
  | .fault line _ => line

theorem Chunk.line_item? {k : Chunk} {c : Char} {line : Nat} {item : Item}
    (h : k.item? c line = some item) : item.line = line := by
  unfold Chunk.item? at h
  split at h <;> cases h <;> rfl

/-- Items stand between the first line and the last one. -/
theorem line_of_mem_scanFrom {line : Nat} {cs : List Char} {item : Item}
    (h : item ∈ scanFrom line cs) : line ≤ item.line ∧ item.line ≤ line + newlines cs := by
  induction line, cs using scanFrom.induct with
  | case1 line =>
    rw [scanFrom.eq_1, List.mem_singleton] at h
    subst h
    exact ⟨Nat.le_refl _, Nat.le_add_right _ _⟩
  | case2 line c cs k next ih =>
    have hlines := newlines_chunk c cs
    rw [scanFrom_cons, List.mem_append, Option.mem_toList] at h
    rcases h with hfirst | hrest
    · have hline : item.line = line + newlines (c :: (chunk c cs).front) := Chunk.line_item? hfirst
      omega
    · have hbounds : line + newlines (c :: (chunk c cs).front) ≤ item.line ∧
          item.line ≤ line + newlines (c :: (chunk c cs).front) + newlines (chunk c cs).rest :=
        ih hrest
      omega

/-- **Tokens and complaints about characters stand on lines of the source.** -/
theorem line_of_mem_tokenize {source : String} :
    (∀ t ∈ (tokenize source).1, 1 ≤ t.line ∧ t.line ≤ 1 + newlines source.toList) ∧
      ∀ r ∈ (tokenize source).2, ∃ line, r.line? = some line ∧
        1 ≤ line ∧ line ≤ 1 + newlines source.toList := by
  constructor
  · intro t ht
    obtain ⟨item, hitem, htoken⟩ := List.mem_filterMap.mp ht
    have hline := line_of_mem_scanFrom hitem
    cases item <;> cases htoken
    exact hline
  · intro r hr
    obtain ⟨item, hitem, hreport⟩ := List.mem_filterMap.mp hr
    have hline := line_of_mem_scanFrom hitem
    cases item <;> cases hreport
    exact ⟨_, rfl, hline⟩

/-! ### Other lines -/

/-- Items that differ in their lines only. -/
inductive Item.Twin (ρ : Renumbering) : Item → Item → Prop
  | token {t t'} (ht : t.Twin ρ t') : Item.Twin ρ (.token t) (.token t')
  | fault {line line'} (cause : Cause) : Item.Twin ρ (.fault line cause) (.fault line' cause)

variable {ρ : Renumbering}

theorem scanFrom_twins (line line' : Nat) (cs : List Char)
    (h : ∀ n ≤ newlines cs, ρ.line (line + n) (line' + n)) :
    List.Forall₂ (Item.Twin ρ) (scanFrom line cs) (scanFrom line' cs) := by
  induction line, cs using scanFrom.induct generalizing line' with
  | case1 line =>
    rw [scanFrom.eq_1, scanFrom.eq_1]
    exact .cons (.token ⟨rfl, rfl, h 0 (Nat.zero_le _)⟩) .nil
  | case2 line c cs k next ih =>
    have hlines : newlines (c :: cs) = newlines (c :: k.front) + newlines k.rest :=
      newlines_chunk c cs
    have hfirst : ρ.line (line + newlines (c :: k.front)) (line' + newlines (c :: k.front)) :=
      h _ (by rw [hlines]; exact Nat.le_add_right _ _)
    rw [scanFrom_cons, scanFrom_cons]
    refine List.rel_append ?_ (ih _ fun n hn => ?_)
    · unfold Chunk.item?
      split
      · exact .nil
      · exact .cons (.token ⟨rfl, rfl, hfirst⟩) .nil
      · exact .cons (.fault _) .nil
    · rw [Nat.add_assoc, Nat.add_assoc]
      exact h _ (by rw [hlines]; exact Nat.add_le_add_left hn _)

/-- **On other lines, a source has the same tokens.** -/
theorem tokenizeFrom_twins (line line' : Nat) (source : String)
    (h : ∀ n ≤ newlines source.toList, ρ.line (line + n) (line' + n)) :
    List.Forall₂ (Token.Twin ρ) (tokenizeFrom line source).1 (tokenizeFrom line' source).1 := by
  have hitems := scanFrom_twins line line' source.toList h
  unfold tokenizeFrom
  dsimp only
  generalize scanFrom line source.toList = items at hitems ⊢
  generalize scanFrom line' source.toList = items' at hitems ⊢
  induction hitems with
  | nil => exact .nil
  | cons hitem _ ih =>
    cases hitem with
    | token ht => exact .cons ht ih
    | fault => exact ih

/-- Whether something is wrong with a source does not depend on its lines. -/
theorem tokenizeFrom_faults (line line' : Nat) (source : String)
    (h : (tokenizeFrom line source).2 = []) : (tokenizeFrom line' source).2 = [] := by
  let ρ : Renumbering := ⟨fun _ _ => True, (· = ·), by rintro i _ j _ rfl rfl; rfl⟩
  have hitems : List.Forall₂ (Item.Twin ρ) _ _ :=
    scanFrom_twins line line' source.toList fun _ _ => trivial
  unfold tokenizeFrom at h ⊢
  dsimp only at h ⊢
  generalize scanFrom line source.toList = items at hitems h ⊢
  generalize scanFrom line' source.toList = items' at hitems ⊢
  induction hitems with
  | nil => rfl
  | cons hitem _ ih =>
    cases hitem with
    | token => exact ih h
    | fault cause => cases h

end Token

end Roteiro
