import Roteiro.Proofs.Token.Renaming
import Roteiro.Tree.Printer

/-!
# Phrases

A tree is printed as a phrase: a word, or phrases in parentheses with single blanks between them. A
word holds neither blanks nor parentheses, so where a word ends can be seen at the next character,
and where a phrase in parentheses ends is known once the phrases in it have ended. No phrase is the
beginning of another one, and the text tells which phrase it is.

* `Expr.phrase`, `Stmt.phrase`: what is printed for a tree.
* `Expr.toList_text`: the text of a tree is that of its phrase.
* `Phrase.eq_of_chars_eq`: two phrases with the same characters are the same.
-/

namespace Roteiro

/-- A word, or phrases in parentheses. -/
inductive Phrase where
  | word (text : String)
  | list (parts : List Phrase)
  deriving Inhabited

namespace Phrase

mutual

/-- The characters of a phrase. -/
def chars : Phrase → List Char
  | word text => text.toList
  | list parts => '(' :: inside parts

/-- The characters behind an opening parenthesis. -/
def inside : List Phrase → List Char
  | [] => [')']
  | p :: ps => p.chars ++ behind ps

/-- The characters behind a phrase in parentheses: the phrases that follow, each with a blank in
front. -/
def behind : List Phrase → List Char
  | [] => [')']
  | p :: ps => ' ' :: (p.chars ++ behind ps)

end

attribute [simp] chars inside behind

/-- Whether a character can stand in a word. -/
def inWord (c : Char) : Bool := !(c = ' ' || c = '(' || c = ')')

/-- Characters of a kind to which neither blanks nor parentheses belong can stand in a word. -/
theorem inWord_of {p : Char → Bool} (hp : p ' ' = false ∧ p '(' = false ∧ p ')' = false) {c : Char}
    (hc : p c = true) : inWord c = true := by
  obtain ⟨hblank, hopening, hclosing⟩ := hp
  by_contra hnot
  simp only [inWord, Bool.not_eq_true', Bool.not_eq_false, Bool.or_eq_true, decide_eq_true_eq]
    at hnot
  rcases hnot with (rfl | rfl) | rfl <;> simp_all

/-- A text that can stand as a word. -/
def IsWord (text : String) : Prop := text ≠ "" ∧ ∀ c ∈ text.toList, inWord c = true

instance (text : String) : Decidable (IsWord text) :=
  decidable_of_iff (text ≠ "" ∧ text.toList.all inWord = true) (by rw [IsWord, List.all_eq_true])

/-- A phrase all of whose words can stand as words. -/
inductive Proper : Phrase → Prop
  | word {text : String} (h : IsWord text) : Proper (word text)
  | list {parts : List Phrase} (h : ∀ p ∈ parts, p.Proper) : Proper (list parts)

/-! ### A text tells its phrase -/

section

variable {n n' : Phrase} {ps ps' : List Phrase} {r r' : List Char}

/-- No word goes on with these characters. -/
def Stops (r : List Char) : Prop := ∀ c ∈ r.head?, inWord c = false

theorem stops_behind (ps : List Phrase) (r : List Char) : Stops (behind ps ++ r) := by
  cases ps <;> · rintro c ⟨⟩; decide

/-- A word ends where no character of a word follows. -/
theorem word_inj {w w' : List Char} (hw : ∀ c ∈ w, inWord c = true)
    (hw' : ∀ c ∈ w', inWord c = true) (hr : Stops r) (hr' : Stops r') (h : w ++ r = w' ++ r') :
    w = w' ∧ r = r' := by
  have hcut := Token.takeWhile_stop inWord w hr
  have hcut' := Token.takeWhile_stop inWord w' hr'
  rw [List.takeWhile_eq_self_iff.mpr hw] at hcut
  rw [List.takeWhile_eq_self_iff.mpr hw'] at hcut'
  exact ⟨by rw [← hcut.1, ← hcut'.1, h], by rw [← hcut.2, ← hcut'.2, h]⟩

/-- A word begins with one of its characters. -/
theorem IsWord.exists_cons {text : String} (h : IsWord text) :
    ∃ c cs, text.toList = c :: cs ∧ inWord c = true := by
  obtain ⟨c, cs, htext⟩ := List.exists_cons_of_ne_nil (mt String.toList_eq_nil_iff.mp h.1)
  exact ⟨c, cs, htext, h.2 c (by rw [htext]; exact List.mem_cons_self)⟩

/-- A phrase begins with an opening parenthesis or with a character of a word. -/
theorem Proper.exists_cons (h : n.Proper) :
    ∃ c cs, n.chars = c :: cs ∧ (c = '(' ∨ inWord c = true) := by
  cases h with
  | word h =>
    obtain ⟨c, cs, hchars, hc⟩ := h.exists_cons
    exact ⟨c, cs, by rw [chars, hchars], .inr hc⟩
  | list => exact ⟨'(', _, rfl, .inl rfl⟩

/-- No phrase begins with the parenthesis that ends the one around it. -/
theorem Proper.chars_append_ne (h : n.Proper) (r r' : List Char) : n.chars ++ r ≠ ')' :: r' := by
  obtain ⟨c, cs, hchars, hc⟩ := h.exists_cons
  rw [hchars]
  rintro ⟨⟩
  rcases hc with hc | hc <;> cases hc

/-- A phrase that is told from others by what begins with it. -/
def Told (n : Phrase) : Prop := ∀ {n' : Phrase} {r r' : List Char}, n'.Proper → Stops r →
  Stops r' → n.chars ++ r = n'.chars ++ r' → n = n' ∧ r = r'

/-- The phrases up to a closing parenthesis, if each of them can be told. -/
theorem behind_inj (hps : ∀ p ∈ ps, p.Told) (hps' : ∀ p ∈ ps', p.Proper)
    (h : behind ps ++ r = behind ps' ++ r') : ps = ps' ∧ r = r' := by
  induction ps generalizing ps' with
  | nil =>
    cases ps' with
    | nil => exact ⟨rfl, (List.cons.inj h).2⟩
    | cons p' ps' => cases h
  | cons p ps ih =>
    cases ps' with
    | nil => cases h
    | cons p' ps' =>
      obtain ⟨hp, hps⟩ := List.forall_mem_cons.mp hps
      obtain ⟨hp', htail⟩ := List.forall_mem_cons.mp hps'
      simp only [behind, List.cons_append, List.append_assoc, List.cons.injEq, true_and] at h
      obtain ⟨rfl, hrest⟩ := hp hp' (stops_behind ps r) (stops_behind ps' r') h
      obtain ⟨rfl, rfl⟩ := ih hps htail hrest
      exact ⟨rfl, rfl⟩

/-- The phrases in parentheses, if each of them can be told. -/
theorem inside_inj (hps : ∀ p ∈ ps, p.Proper ∧ p.Told) (hps' : ∀ p ∈ ps', p.Proper)
    (h : inside ps ++ r = inside ps' ++ r') : ps = ps' ∧ r = r' := by
  cases ps with
  | nil =>
    cases ps' with
    | nil => exact ⟨rfl, (List.cons.inj h).2⟩
    | cons p' ps' =>
      rw [inside, inside, List.append_assoc] at h
      exact absurd h.symm ((hps' p' List.mem_cons_self).chars_append_ne _ _)
  | cons p ps =>
    obtain ⟨⟨hproper, hp⟩, hps⟩ := List.forall_mem_cons.mp hps
    cases ps' with
    | nil =>
      rw [inside, inside, List.append_assoc] at h
      exact absurd h (hproper.chars_append_ne _ _)
    | cons p' ps' =>
      obtain ⟨hp', htail⟩ := List.forall_mem_cons.mp hps'
      rw [inside, inside, List.append_assoc, List.append_assoc] at h
      obtain ⟨rfl, hrest⟩ := hp hp' (stops_behind ps r) (stops_behind ps' r') h
      obtain ⟨rfl, rfl⟩ := behind_inj (fun q hq => (hps q hq).2) htail hrest
      exact ⟨rfl, rfl⟩

/-- A word is no phrase in parentheses. -/
theorem IsWord.append_ne {text : String} (h : IsWord text) (r r' : List Char) :
    text.toList ++ r ≠ '(' :: r' := by
  obtain ⟨c, cs, htext, hc⟩ := h.exists_cons
  rw [htext]
  rintro ⟨⟩
  cases hc

/-- Every phrase can be told. -/
theorem Proper.told (hn : n.Proper) : n.Told := by
  induction hn with
  | @word text hword =>
    intro n' r r' hn' hr hr' h
    cases hn' with
    | @word text' hword' =>
      obtain ⟨htext, hrest⟩ := word_inj hword.2 hword'.2 hr hr' h
      exact ⟨by rw [String.toList_inj.mp htext], hrest⟩
    | list => exact absurd h (hword.append_ne _ _)
  | @list parts hparts ih =>
    intro n' r r' hn' hr hr' h
    cases hn' with
    | word hword' => exact absurd h.symm (hword'.append_ne _ _)
    | @list parts' hparts' =>
      obtain ⟨rfl, hrest⟩ := inside_inj (fun p hp => ⟨hparts p hp, ih p hp⟩) hparts'
        (List.cons.inj h).2
      exact ⟨rfl, hrest⟩

/-- **The characters tell the phrase.** -/
theorem eq_of_chars_eq (hn : n.Proper) (hn' : n'.Proper) (h : n.chars = n'.chars) : n = n' := by
  have hstops : Stops [] := nofun
  rw [← List.append_nil n.chars, ← List.append_nil n'.chars] at h
  exact (hn.told hn' hstops hstops h).1

end

end Phrase

/-! ### What is printed for a tree -/

/-- The parameters of a function. -/
def FunctionDecl.paramsPhrase (params : List Token) : Phrase :=
  .list (params.map fun p => .word p.lexeme)

mutual

/-- What is printed for an expression. -/
def Expr.phrase : Expr → Phrase
  | .literal value => .word value.text
  | .unary operator operand => .list [.word operator.lexeme, operand.phrase]
  | .binary left operator right => .list [.word operator.lexeme, left.phrase, right.phrase]
  | .group inner => .list [.word "group", inner.phrase]
  | .logical left operator right => .list [.word operator.lexeme, left.phrase, right.phrase]
  | .conditional test yes no => .list [.word "?:", test.phrase, yes.phrase, no.phrase]
  | .var _ name => .word name.lexeme
  | .assign _ name value => .list [.word "=", .word name.lexeme, value.phrase]
  | .call callee _ arguments => .list (.word "call" :: callee.phrase :: Expr.phrases arguments)
  | .lambda decl => decl.phrase "lambda"
  | .array _ elements => .list (.word "array" :: Expr.phrases elements)
  | .index _ base key => .list [.word "index", base.phrase, key.phrase]
  | .indexSet _ base key value => .list [.word "index=", base.phrase, key.phrase, value.phrase]
  | .get object name => .list [.word ".", object.phrase, .word name.lexeme]
  | .set object name value => .list [.word ".=", object.phrase, .word name.lexeme, value.phrase]
  | .self _ keyword => .word keyword.lexeme

/-- What is printed for several expressions. -/
def Expr.phrases : List Expr → List Phrase
  | [] => []
  | e :: es => e.phrase :: Expr.phrases es

/-- What is printed for a statement. -/
def Stmt.phrase : Stmt → Phrase
  | .expression expr => .list [.word ";", expr.phrase]
  | .print expr => .list [.word "escreva", expr.phrase]
  | .var name none => .list [.word "var", .word name.lexeme]
  | .var name (some value) => .list [.word "var", .word name.lexeme, value.phrase]
  | .block body => .list (.word "block" :: Stmt.phrases body)
  | .ifElse test yes none => .list [.word "se", test.phrase, yes.phrase]
  | .ifElse test yes (some no) => .list [.word "se", test.phrase, yes.phrase, no.phrase]
  | .loop test body _ => .list [.word "enquanto", test.phrase, body.phrase]
  | .exitLoop _ => .list [.word "pare"]
  | .nextIteration _ => .list [.word "continue"]
  | .function decl => decl.phrase "funcao"
  | .result _ none => .list [.word "retorne"]
  | .result _ (some value) => .list [.word "retorne", value.phrase]
  | .classDecl name methods =>
    .list (.word "classe" :: .word name.lexeme :: FunctionDecl.phrases "metodo" methods)

/-- What is printed for several statements. -/
def Stmt.phrases : List Stmt → List Phrase
  | [] => []
  | s :: ss => s.phrase :: Stmt.phrases ss

/-- What is printed for a function of the given kind. -/
def FunctionDecl.phrase (kind : String) : FunctionDecl → Phrase
  | ⟨none, params, body⟩ =>
    .list (.word kind :: FunctionDecl.paramsPhrase params :: Stmt.phrases body)
  | ⟨some name, params, body⟩ =>
    .list (.word kind :: .word name.lexeme :: FunctionDecl.paramsPhrase params ::
      Stmt.phrases body)

/-- What is printed for several functions of one kind. -/
def FunctionDecl.phrases (kind : String) : List FunctionDecl → List Phrase
  | [] => []
  | f :: fs => f.phrase kind :: FunctionDecl.phrases kind fs

end

/-! ### The text of a tree -/

/-- Characters, phrases with blanks in front of them, and a closing parenthesis. -/
theorem Phrase.intercalate_append (cs : List Char) (ps : List Phrase) :
    [' '].intercalate (cs :: ps.map chars) ++ [')'] = cs ++ behind ps := by
  induction ps generalizing cs with
  | nil => simp [List.intercalate]
  | cons p ps ih =>
    rw [List.map_cons, List.intercalate_cons_cons, List.append_assoc, List.append_assoc, ih, behind]
    rfl

/-- A head and its parts in parentheses, if the texts of the parts are those of phrases. -/
theorem toList_inParens {head : String} {parts : List String} {ps : List Phrase}
    (hparts : parts.map String.toList = ps.map Phrase.chars) :
    (inParens head parts).toList = '(' :: (head.toList ++ Phrase.behind ps) := by
  have htext : (" ".intercalate (head :: parts)).toList =
      [' '].intercalate (head.toList :: ps.map Phrase.chars) := by
    rw [String.toList_intercalate, List.map_cons, hparts]
    rfl
  rw [inParens, String.toList_append, String.toList_append, htext, List.append_assoc]
  exact congrArg ('(' :: ·) (Phrase.intercalate_append _ _)

theorem FunctionDecl.toList_params (params : List Token) :
    ("(" ++ " ".intercalate (params.map Token.lexeme) ++ ")").toList =
      (FunctionDecl.paramsPhrase params).chars := by
  cases params with
  | nil => rfl
  | cons p params =>
    have hparts : (params.map Token.lexeme).map String.toList =
        (params.map fun p => Phrase.word p.lexeme).map Phrase.chars := by
      simp
    exact toList_inParens hparts

/-- The head of a function is what is printed in front of its body. -/
theorem FunctionDecl.toList_header (kind : String) (name? : Option Token) (params : List Token)
    (body : List Stmt) :
    '(' :: ((FunctionDecl.header kind ⟨name?, params, []⟩).toList ++
      Phrase.behind (Stmt.phrases body)) =
        (FunctionDecl.phrase kind ⟨name?, params, body⟩).chars := by
  have hheader : ∀ name : Option Token, (FunctionDecl.header kind ⟨name, params, []⟩).toList =
      kind.toList ++ ((name.toList.flatMap fun t => ' ' :: t.lexeme.toList) ++
        ' ' :: (paramsPhrase params).chars) := fun name => by
    rw [← toList_params]
    unfold FunctionDecl.header
    dsimp only
    generalize "(" ++ " ".intercalate (params.map Token.lexeme) ++ ")" = text
    cases name <;> simp [ToString.toString]
  rw [hheader]
  cases name? <;> simp [FunctionDecl.phrase]

mutual

/-- **The text of an expression is that of its phrase.** -/
theorem Expr.toList_text : (e : Expr) → e.text.toList = e.phrase.chars
  | .literal value => rfl
  | .unary operator operand => toList_inParens (by simp [operand.toList_text])
  | .binary left operator right | .logical left operator right =>
    toList_inParens (by simp [left.toList_text, right.toList_text])
  | .group inner => toList_inParens (by simp [inner.toList_text])
  | .conditional test yes no =>
    toList_inParens (by simp [test.toList_text, yes.toList_text, no.toList_text])
  | .var _ name => rfl
  | .assign _ name value => toList_inParens (by simp [value.toList_text])
  | .call callee _ arguments =>
    toList_inParens (by simp [callee.toList_text, Expr.map_toList_texts arguments])
  | .lambda decl => decl.toList_text "lambda"
  | .array _ elements => toList_inParens (Expr.map_toList_texts elements)
  | .index _ base key => toList_inParens (by simp [base.toList_text, key.toList_text])
  | .indexSet _ base key value =>
    toList_inParens (by simp [base.toList_text, key.toList_text, value.toList_text])
  | .get object name => toList_inParens (by simp [object.toList_text])
  | .set object name value =>
    toList_inParens (by simp [object.toList_text, value.toList_text])
  | .self _ keyword => rfl

theorem Expr.map_toList_texts : (es : List Expr) →
    (Expr.texts es).map String.toList = (Expr.phrases es).map Phrase.chars
  | [] => rfl
  | e :: es => by
    rw [Expr.texts, Expr.phrases, List.map_cons, List.map_cons, e.toList_text,
      Expr.map_toList_texts es]

/-- The text of a statement is that of its phrase. -/
theorem Stmt.toList_text : (s : Stmt) → s.text.toList = s.phrase.chars
  | .expression expr | .print expr => toList_inParens (by simp [expr.toList_text])
  | .var name none => toList_inParens rfl
  | .var name (some value) => toList_inParens (by simp [value.toList_text])
  | .block body => toList_inParens (Stmt.map_toList_texts body)
  | .ifElse test yes none => toList_inParens (by simp [test.toList_text, yes.toList_text])
  | .ifElse test yes (some no) =>
    toList_inParens (by simp [test.toList_text, yes.toList_text, no.toList_text])
  | .loop test body _ => toList_inParens (by simp [test.toList_text, body.toList_text])
  | .exitLoop _ | .nextIteration _ | .result _ none => by
    simp only [Stmt.text, Stmt.phrase]
    decide
  | .function decl => decl.toList_text "funcao"
  | .result _ (some value) => toList_inParens (by simp [value.toList_text])
  | .classDecl name methods =>
    toList_inParens (by simp [FunctionDecl.map_toList_texts "metodo" methods])

theorem Stmt.map_toList_texts : (ss : List Stmt) →
    (Stmt.texts ss).map String.toList = (Stmt.phrases ss).map Phrase.chars
  | [] => rfl
  | s :: ss => by
    rw [Stmt.texts, Stmt.phrases, List.map_cons, List.map_cons, s.toList_text,
      Stmt.map_toList_texts ss]

/-- The text of a function is that of its phrase. -/
theorem FunctionDecl.toList_text (kind : String) :
    (f : FunctionDecl) → (f.text kind).toList = (f.phrase kind).chars
  | ⟨name?, params, body⟩ => by
    rw [FunctionDecl.text, toList_inParens (Stmt.map_toList_texts body)]
    exact FunctionDecl.toList_header kind name? params body

theorem FunctionDecl.map_toList_texts (kind : String) : (fs : List FunctionDecl) →
    (FunctionDecl.texts kind fs).map String.toList =
      (FunctionDecl.phrases kind fs).map Phrase.chars
  | [] => rfl
  | f :: fs => by
    rw [FunctionDecl.texts, FunctionDecl.phrases, List.map_cons, List.map_cons, f.toList_text,
      FunctionDecl.map_toList_texts kind fs]

end

end Roteiro
