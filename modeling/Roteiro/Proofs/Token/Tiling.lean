import Roteiro.Proofs.Token.Seam

/-!
# The scan tiles its source

The chunks of a source, each at its place, follow one another from its first character to its last
one. A place is a byte offset of the source that lies between two characters, so every slice
between two places is a text.

* `Span`: a chunk at its place; `spans`: all of them, in order.
* `Span.isComment_of_text`: a comment ends in front of the next newline byte, or at the end.
* `Span.sound`: what is cut off at a place is what the source holds there.
* `scan_tiled`: the items of a scan are those of its spans and one end marker behind them.
-/

namespace Roteiro

namespace Token

/-! ### What a chunk can be -/

/-- What can be cut off in front of `c :: cs`. -/
inductive Cut (c : Char) (cs : List Char) : Chunk → Prop
  | blank (hc : c ∈ [' ', '\r', '\t', '\n']) : Cut c cs ⟨.skip, [], cs⟩
  | comment {ds} (hc : c = '/') (hcs : cs = '/' :: ds) :
    Cut c cs ⟨.skip, '/' :: ds.takeWhile (· ≠ '\n'), ds.dropWhile (· ≠ '\n')⟩
  | symbol {kind front rest} (hkind : kind ∈ Kind.plain) (hending : kind ≠ .endOfInput) :
    Cut c cs ⟨.token kind, front, rest⟩
  | number : Cut c cs (number c cs)
  | quoted {body rest} (hc : c ∈ ['"', '\'']) (hbody : c ∉ body) (hcs : cs = body ++ c :: rest) :
    Cut c cs ⟨.token (.string (String.ofList body)), body ++ [c], rest⟩
  | unterminated (hc : c ∈ ['"', '\'']) (hcs : c ∉ cs) :
    Cut c cs ⟨.fault .unterminatedString, cs, []⟩
  | stray : Cut c cs ⟨.fault (.unexpectedCharacter c), [], cs⟩

theorem ofWord_mem_plain (text : String) : Kind.ofWord text ∈ Kind.plain := by
  unfold Kind.ofWord
  cases hfound : Kind.keywords.lookup text with
  | none => exact (by decide : Kind.identifier ∈ Kind.plain)
  | some kind =>
    obtain ⟨front, rest, hsplit, -⟩ := List.lookup_eq_some_iff.mp hfound
    have hkeywords : ∀ p ∈ Kind.keywords, p.2 ∈ Kind.plain := by decide +kernel
    exact hkeywords (text, kind) (by rw [hsplit]; simp)

theorem quoted_cut {c : Char} (hc : c ∈ ['"', '\'']) (cs : List Char) : Cut c cs (quoted c cs) := by
  have hcut : cs.takeWhile (· ≠ c) ++ cs.dropWhile (· ≠ c) = cs :=
    List.takeWhile_append_dropWhile
  have hbody : c ∉ cs.takeWhile (· ≠ c) := by
    intro hmem
    simpa using List.all_eq_true.mp (List.all_takeWhile (p := (· ≠ c)) (l := cs)) c hmem
  unfold quoted
  cases hrest : cs.dropWhile (· ≠ c) with
  | nil =>
    rw [hrest, List.append_nil] at hcut
    rw [hcut] at hbody
    simp only [hcut]
    exact .unterminated hc hbody
  | cons closing rest =>
    have hclosing : closing = c := by
      have hne : cs.dropWhile (· ≠ c) ≠ [] := by
        rw [hrest]
        exact List.cons_ne_nil _ _
      have hhead := List.head_dropWhile_not (· ≠ c) hne
      simp only [hrest, List.head_cons] at hhead
      simpa using hhead
    subst hclosing
    rw [hrest] at hcut
    exact .quoted hc hbody hcut.symm

/-- **What a chunk can be.** -/
theorem chunk_cut (c : Char) (cs : List Char) : Cut c cs (chunk c cs) := by
  unfold chunk
  split
  case h_14 | h_15 | h_16 | h_17 | h_18 =>
    unfold double
    split
    · split <;> exact .symbol (by decide) (by decide)
    · exact .symbol (by decide) (by decide)
  case h_19 =>
    unfold equalSign
    split <;> exact .symbol (by decide) (by decide)
  case h_20 | h_21 =>
    unfold doubled
    split
    · split
      · exact .symbol (by decide) (by decide)
      · exact .stray
    · exact .stray
  case h_22 | h_23 | h_24 | h_25 => exact .blank (by decide)
  case h_26 =>
    unfold slash
    split
    · next ds => exact .comment rfl rfl
    · exact .symbol (by decide) (by decide)
  case h_27 | h_28 => exact quoted_cut (by decide) cs
  case h_29 =>
    split
    · exact .number
    · split
      · exact .symbol (ofWord_mem_plain _) (ofWord_ne_endOfInput _)
      · exact .stray
  all_goals exact .symbol (by decide) (by decide)

/-! ### Newline bytes -/

/-- The bytes of a text. -/
def bytes (text : String) : List UInt8 := text.toByteArray.data.toList

theorem bytes_append (s t : String) : bytes (s ++ t) = bytes s ++ bytes t := by
  simp [bytes]

theorem bytes_ofList (cs : List Char) :
    bytes (String.ofList cs) = cs.flatMap String.utf8EncodeChar := by
  simp [bytes, List.utf8Encode]

theorem length_bytes (text : String) : (bytes text).length = text.utf8ByteSize := by
  simp [bytes]

/-- Where the first newline byte stands, or the number of bytes if there is none. -/
def newlineByte (bytes : List UInt8) : Nat := bytes.findIdx (· == 10)

/-- The bytes of the other characters are not newline bytes. -/
theorem newline_notMem {c : Char} (hc : c ≠ '\n') : (10 : UInt8) ∉ String.utf8EncodeChar c := by
  have hval : c.val.toNat ≠ 10 := fun h => hc (Char.toNat_inj.mp h)
  unfold String.utf8EncodeChar
  dsimp only
  generalize c.val.toNat = n at hval
  split
  · simp [← UInt8.toNat_inj]; omega
  · split
    · simp [← UInt8.toNat_inj]; omega
    · split
      · simp [← UInt8.toNat_inj]; omega
      · simp [← UInt8.toNat_inj]; omega

/-- The first newline byte is the first newline. -/
theorem newlineByte_ofList (cs : List Char) :
    newlineByte (bytes (String.ofList cs)) =
      (String.ofList (cs.takeWhile (· ≠ '\n'))).utf8ByteSize := by
  rw [← length_bytes, bytes_ofList, bytes_ofList, newlineByte]
  induction cs with
  | nil => rfl
  | cons c cs ih =>
    rw [List.flatMap_cons]
    by_cases hc : c = '\n'
    · subst hc
      rfl
    · have hnone : (String.utf8EncodeChar c).findIdx (· == 10) =
          (String.utf8EncodeChar c).length := by
        rw [List.findIdx_eq_length]
        intro byte hbyte
        exact beq_false_of_ne fun h => newline_notMem hc (h ▸ hbyte)
      rw [List.findIdx_append, if_neg (by omega), ih,
        List.takeWhile_cons_of_pos (by simpa using hc), List.flatMap_cons, List.length_append,
        Nat.add_comm]

/-! ### Chunks at their places -/

variable {source : String}

/-- A chunk of a source at its place: the text in front of it, the character it starts with, and
all characters behind that one. -/
structure Span (source : String) where
  taken : String
  first : Char
  behind : List Char
  source_eq : source = taken ++ String.ofList (first :: behind)

namespace Span

variable (s : Span source)

/-- What the scan cuts off here. -/
def chunk : Chunk := Token.chunk s.first s.behind

/-- What the chunk is. -/
def reading : Reading := s.chunk.reading

/-- The characters of the chunk. -/
def text : String := String.ofList (s.first :: s.chunk.front)

/-- The characters behind the chunk. -/
def rest : String := String.ofList s.chunk.rest

theorem source_eq_text : source = s.taken ++ (s.text ++ s.rest) := by
  conv_lhs => rw [s.source_eq, ← chunk_append s.first s.behind]
  rw [text, rest, chunk, ← String.ofList_append, List.cons_append]

theorem source_eq_rest : source = s.taken ++ s.text ++ s.rest := by
  rw [String.append_assoc]
  exact s.source_eq_text

/-- Where the chunk starts. -/
def start : source.Pos := String.Pos.ofEqAppend s.source_eq_text

/-- Where the chunk ends. -/
def stop : source.Pos := String.Pos.ofEqAppend s.source_eq_rest

theorem splits_start : s.start.Splits s.taken (s.text ++ s.rest) :=
  String.Pos.splits_ofEqAppend _

theorem splits_stop : s.stop.Splits (s.taken ++ s.text) s.rest :=
  String.Pos.splits_ofEqAppend _

theorem start_le_stop : s.start ≤ s.stop :=
  (s.splits_start.le_iff_exists_eq_append s.splits_stop).mpr ⟨s.text, rfl, rfl⟩

/-- The source between the two ends of the chunk. -/
def slice : String := (source.slice s.start s.stop s.start_le_stop).copy

/-- The line on which the chunk ends. -/
def line : Nat := 1 + newlines (source.sliceTo s.stop).copy.toList

/-- The item of the chunk, if it is not skipped. -/
def item? : Option Item :=
  match s.reading with
  | .skip => none
  | .token kind => some (.token ⟨kind, s.slice, s.line⟩)
  | .fault cause => some (.fault s.line cause)

/-! ### Texts and places -/

theorem slice_eq_text : s.slice = s.text := by
  obtain ⟨_, htext⟩ := String.copy_slice_eq_iff_splits.mpr
    ⟨s.taken, s.rest, s.splits_start, s.splits_stop⟩
  exact htext

theorem text_ne_empty : s.text ≠ "" := by
  intro hempty
  have hlist := congrArg String.toList hempty
  simp [text] at hlist

theorem start_lt_stop : s.start < s.stop := by
  rw [s.splits_start.lt_iff_exists_eq_append s.splits_stop]
  exact ⟨s.text, s.text_ne_empty, rfl, rfl⟩

/-- A place inside a chunk is a place of the source. -/
theorem isValid_inside {front back : String} (h : s.text = front ++ back) :
    (s.taken ++ front).rawEndPos.IsValid source := by
  have hsource : source = s.taken ++ front ++ (back ++ s.rest) := by
    refine s.source_eq_text.trans ?_
    rw [h, String.append_assoc, String.append_assoc]
  have hplace := (String.Pos.ofEqAppend hsource).isValid
  rwa [(String.Pos.splits_ofEqAppend hsource).offset_eq_rawEndPos] at hplace

/-! ### What a chunk holds -/

/-- A comment: it ends in front of the newline byte that a search from behind its two slashes finds
first, or at the end of the source. -/
structure IsComment : Prop where
  slashes : ∃ body, s.slice = "//" ++ String.ofList body ∧ '\n' ∉ body
  stop : s.stop.offset.byteIdx = s.start.offset.byteIdx + 2 +
    newlineByte ((bytes source).drop (s.start.offset.byteIdx + 2))

/-- A text in quotes: its value is the slice between two places one byte inside the chunk. -/
def IsQuoted (value : String) : Prop :=
  ∃ (inner outer : source.Pos) (h : inner ≤ outer),
    inner.offset.byteIdx = s.start.offset.byteIdx + 1 ∧
      outer.offset.byteIdx + 1 = s.stop.offset.byteIdx ∧
      (source.slice inner outer h).copy = value

/-- A text whose closing quote is missing: all that is left of the source. -/
structure IsUnterminated : Prop where
  quote : ∃ quote ∈ ['"', '\''], ∃ body, s.slice = String.ofList (quote :: body) ∧ quote ∉ body
  stop : s.stop = source.endPos

/-- What a chunk at its place is, read off the source. -/
structure Sound : Prop where
  advances : s.start < s.stop
  inside : ∀ {front back}, s.slice = front ++ back →
    (⟨s.start.offset.byteIdx + front.utf8ByteSize⟩ : String.Pos.Raw).IsValid source
  skip : s.reading = .skip → s.slice ∈ [" ", "\r", "\t", "\n"] ∨ s.IsComment
  token : ∀ {kind}, s.reading = .token kind → kind ≠ .endOfInput
  quoted : ∀ {value}, s.reading = .token (.string value) → s.IsQuoted value
  fault : ∀ {cause}, s.reading = .fault cause →
    (∃ c, cause = .unexpectedCharacter c ∧ s.slice = String.singleton c) ∨
      (cause = .unterminatedString ∧ s.IsUnterminated)

theorem byteIdx_start : s.start.offset.byteIdx = s.taken.utf8ByteSize := by
  rw [s.splits_start.offset_eq_rawEndPos, String.byteIdx_rawEndPos]

theorem byteIdx_stop : s.stop.offset.byteIdx = s.taken.utf8ByteSize + s.text.utf8ByteSize := by
  rw [s.splits_stop.offset_eq_rawEndPos, String.byteIdx_rawEndPos, String.utf8ByteSize_append]

/-- A comment ends where a search for a newline byte ends. -/
theorem isComment_of_text {ds : List Char} (hfirst : s.first = '/') (hbehind : s.behind = '/' :: ds)
    (hfront : s.chunk.front = '/' :: ds.takeWhile (· ≠ '\n')) : s.IsComment := by
  have htext : s.text = "//" ++ String.ofList (ds.takeWhile (· ≠ '\n')) := by
    rw [text, hfirst, hfront]
    simp [← String.toList_inj]
  have hsource : source = s.taken ++ "//" ++ String.ofList ds := by
    refine s.source_eq.trans ?_
    rw [hfirst, hbehind]
    simp [← String.toList_inj]
  refine ⟨⟨_, s.slice_eq_text.trans htext, fun hmem => ?_⟩, ?_⟩
  · simpa using List.all_eq_true.mp List.all_takeWhile _ hmem
  · have hbytes : (bytes source).drop (s.taken.utf8ByteSize + 2) = bytes (String.ofList ds) := by
      have hlength : (bytes (s.taken ++ "//")).length = s.taken.utf8ByteSize + 2 := by
        rw [length_bytes, String.utf8ByteSize_append]
        rfl
      calc (bytes source).drop (s.taken.utf8ByteSize + 2)
          = (bytes (s.taken ++ "//" ++ String.ofList ds)).drop (s.taken.utf8ByteSize + 2) :=
            congrArg (fun text => (bytes text).drop _) hsource
        _ = bytes (String.ofList ds) := by
            rw [bytes_append, ← hlength]
            exact List.drop_left
    rw [s.byteIdx_start, s.byteIdx_stop, hbytes, newlineByte_ofList, htext,
      String.utf8ByteSize_append, ← Nat.add_assoc]
    rfl

/-- The value of a text in quotes is what stands between them. -/
theorem isQuoted_of_text {body : List Char} (hfirst : s.first ∈ ['"', '\''])
    (hfront : s.chunk.front = body ++ [s.first]) : s.IsQuoted (String.ofList body) := by
  have hsize : s.first.utf8Size = 1 := by
    rcases List.mem_pair.mp hfirst with h | h <;> rw [h] <;> rfl
  have htext : s.text = String.singleton s.first ++ String.ofList body ++
      String.singleton s.first := by
    rw [text, hfront]
    simp [← String.toList_inj]
  have hinner : source = s.taken ++ String.singleton s.first ++
      (String.ofList body ++ (String.singleton s.first ++ s.rest)) := by
    refine s.source_eq_text.trans ?_
    simp only [htext, String.append_assoc]
  have houter : source = s.taken ++ String.singleton s.first ++ String.ofList body ++
      (String.singleton s.first ++ s.rest) := by
    refine hinner.trans ?_
    simp only [String.append_assoc]
  have hslice := String.copy_slice_eq_iff_splits.mpr
    ⟨_, _, String.Pos.splits_ofEqAppend hinner, String.Pos.splits_ofEqAppend houter⟩
  obtain ⟨hle, hcopy⟩ := hslice
  refine ⟨_, _, hle, ?_, ?_, hcopy⟩
  · rw [(String.Pos.splits_ofEqAppend hinner).offset_eq_rawEndPos, s.byteIdx_start]
    simp [hsize]
  · rw [(String.Pos.splits_ofEqAppend houter).offset_eq_rawEndPos, s.byteIdx_stop, htext]
    simp [hsize, Nat.add_assoc]

theorem cut : Cut s.first s.behind s.chunk := chunk_cut s.first s.behind

theorem skip_of_reading (h : s.reading = .skip) :
    s.slice ∈ [" ", "\r", "\t", "\n"] ∨ s.IsComment := by
  have hcut := s.cut
  rw [reading] at h
  generalize hk : s.chunk = k at h hcut
  cases hcut with
  | blank hc =>
    left
    rw [slice_eq_text, text, hk]
    exact List.mem_map_of_mem (f := fun c => String.ofList [c]) hc
  | comment hc hcs =>
    right
    exact s.isComment_of_text hc hcs (by rw [hk])
  | symbol | number | quoted | unterminated | stray => cases h

theorem ne_endOfInput_of_reading {kind : Kind} (h : s.reading = .token kind) :
    kind ≠ .endOfInput := by
  rintro rfl
  exact chunk_ne_endOfInput s.first s.behind h

theorem quoted_of_reading {value : String} (h : s.reading = .token (.string value)) :
    s.IsQuoted value := by
  have hcut := s.cut
  rw [reading] at h
  generalize hk : s.chunk = k at h hcut
  cases hcut with
  | symbol hkind =>
    cases h
    simp [Kind.plain] at hkind
  | quoted hc =>
    cases h
    exact s.isQuoted_of_text hc (by rw [hk])
  | blank | comment | number | unterminated | stray => cases h

theorem fault_of_reading {cause : Cause} (h : s.reading = .fault cause) :
    (∃ c, cause = .unexpectedCharacter c ∧ s.slice = String.singleton c) ∨
      (cause = .unterminatedString ∧ s.IsUnterminated) := by
  have hcut := s.cut
  rw [reading] at h
  generalize hk : s.chunk = k at h hcut
  cases hcut with
  | stray =>
    cases h
    refine Or.inl ⟨s.first, rfl, ?_⟩
    rw [slice_eq_text, text, hk]
    rfl
  | unterminated hc hcs =>
    cases h
    refine Or.inr ⟨rfl, ⟨s.first, hc, s.behind, ?_, hcs⟩, ?_⟩
    · rw [slice_eq_text, text, hk]
    · rw [s.splits_stop.eq_endPos_iff, rest, hk]
  | blank | comment | symbol | number | quoted => cases h

/-- **What is cut off at a place is what the source holds there.** -/
theorem sound : s.Sound where
  advances := s.start_lt_stop
  inside := by
    intro front back h
    rw [slice_eq_text] at h
    rw [s.byteIdx_start, ← String.utf8ByteSize_append]
    exact s.isValid_inside h
  skip := s.skip_of_reading
  token := s.ne_endOfInput_of_reading
  quoted := s.quoted_of_reading
  fault := s.fault_of_reading

end Span

/-! ### All chunks of a source -/

/-- The chunks behind a text of the source. -/
def spansFrom (taken : String) :
    (cs : List Char) → source = taken ++ String.ofList cs → List (Span source)
  | [], _ => []
  | c :: cs, h =>
    let s : Span source := ⟨taken, c, cs, h⟩
    s :: spansFrom (taken ++ s.text) s.chunk.rest s.source_eq_rest
termination_by cs => cs.length
decreasing_by
  have := length_chunk_rest_le c cs
  simp only [Span.chunk, List.length_cons]
  omega

/-- The chunks of a source. -/
def spans (source : String) : List (Span source) := spansFrom "" source.toList (by simp)

/-- Some chunks follow one another from a place to the end of the source. -/
def Chained (place : source.Pos) : List (Span source) → Prop
  | [] => place = source.endPos
  | s :: rest => s.start = place ∧ Chained s.stop rest

theorem spansFrom_chained (taken : String) (cs : List Char)
    (h : source = taken ++ String.ofList cs) :
    Chained (String.Pos.ofEqAppend h) (spansFrom taken cs h) := by
  have hsplits := String.Pos.splits_ofEqAppend h
  induction taken, cs, h using spansFrom.induct with
  | case1 taken h =>
    rw [spansFrom]
    exact hsplits.eq_endPos_iff.mpr rfl
  | case2 taken c cs h s _ ih =>
    rw [spansFrom]
    exact ⟨s.splits_start.pos_eq hsplits, ih s.splits_stop⟩

/-- The slices of the chunks behind a text of the source are what is left of the source. -/
theorem flatMap_spansFrom (taken : String) (cs : List Char)
    (h : source = taken ++ String.ofList cs) :
    (spansFrom taken cs h).flatMap (fun s => s.slice.toList) = cs := by
  induction taken, cs, h using spansFrom.induct with
  | case1 taken h => rw [spansFrom]; rfl
  | case2 taken c cs h s _ ih =>
    have htext : s.slice.toList = c :: s.chunk.front := by
      rw [Span.slice_eq_text, Span.text, String.toList_ofList]
    calc (spansFrom taken (c :: cs) h).flatMap (fun s => s.slice.toList)
        = s.slice.toList ++ (spansFrom _ s.chunk.rest s.source_eq_rest).flatMap
            (fun s => s.slice.toList) := by rw [spansFrom, List.flatMap_cons]
      _ = c :: s.chunk.front ++ s.chunk.rest := by rw [ih, htext]
      _ = c :: cs := congrArg (c :: ·) (chunk_append c cs)

/-- The items behind a text of the source are those of the chunks there, and one end marker. -/
theorem scanFrom_spansFrom (taken : String) (cs : List Char)
    (h : source = taken ++ String.ofList cs) :
    scanFrom (1 + newlines taken.toList) cs =
      (spansFrom taken cs h).filterMap Span.item? ++
        [.token ⟨.endOfInput, "", 1 + newlines source.toList⟩] := by
  induction taken, cs, h using spansFrom.induct with
  | case1 taken h =>
    rw [scanFrom, spansFrom, h]
    simp
  | case2 taken c cs h s _ ih =>
    have hline : s.line = 1 + newlines taken.toList + newlines (c :: s.chunk.front) := by
      rw [Span.line, s.splits_stop.copy_sliceTo_eq, String.toList_append, newlines_append,
        Span.text, String.toList_ofList, Nat.add_assoc]
    have hlines : 1 + newlines (taken ++ s.text).toList = s.line := by
      rw [Span.line, s.splits_stop.copy_sliceTo_eq]
    have hitem : (chunk c cs).item? c s.line = s.item? := by
      unfold Chunk.item? Span.item?
      rw [s.slice_eq_text]
      rfl
    rw [hlines] at ih
    calc scanFrom (1 + newlines taken.toList) (c :: cs)
        = s.item?.toList ++ scanFrom s.line s.chunk.rest := by
          rw [scanFrom_cons, ← hitem, hline]
          rfl
      _ = (s :: spansFrom _ s.chunk.rest s.source_eq_rest).filterMap Span.item? ++ _ := by
          rw [ih, ← List.append_assoc, List.filterMap_cons]
          cases s.item? <;> rfl
      _ = (spansFrom taken (c :: cs) h).filterMap Span.item? ++ _ := by rw [spansFrom]

/-- **A scan tiles its source.** Its chunks follow one another from the first place of the source
to the last one, they are what the source holds there, and the items are those of the chunks, each
on the line of the end of its chunk, with one end marker behind them. -/
theorem scan_tiled (source : String) :
    Chained source.startPos (spans source) ∧
      (spans source).flatMap (fun s => s.slice.toList) = source.toList ∧
      (∀ s ∈ spans source, s.Sound) ∧
      scan source = (spans source).filterMap Span.item? ++
        [.token ⟨.endOfInput, "", 1 + newlines source.toList⟩] ∧
      ∀ t, .token t ∈ (spans source).filterMap Span.item? → t.kind ≠ .endOfInput := by
  have hsource : source = "" ++ String.ofList source.toList := by simp
  refine ⟨?_, flatMap_spansFrom "" source.toList hsource, fun s _ => s.sound,
    scanFrom_spansFrom "" source.toList hsource, fun t ht => ?_⟩
  · have hstart : String.Pos.ofEqAppend hsource = source.startPos :=
      (String.Pos.splits_ofEqAppend hsource).eq_startPos_iff.mpr rfl
    rw [← hstart]
    exact spansFrom_chained "" source.toList hsource
  · obtain ⟨s, -, hitem⟩ := List.mem_filterMap.mp ht
    unfold Span.item? at hitem
    split at hitem
    · cases hitem
    · next kind hreading =>
      cases hitem
      exact s.ne_endOfInput_of_reading hreading
    · cases hitem

end Token

end Roteiro
