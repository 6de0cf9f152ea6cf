import Roteiro.Proofs.Parser.Legible

/-!
# What the text of an expression tells

An expression that is parsed from a source is printed as a text of which every other such expression
with the same text is a likeness: the two differ at most in what is not printed. Texts have to be
left out, since they are printed without quotes and may look like anything, and so have numbers that
are not finite, which are printed as words, and loops with a step, of which only one copy is
printed.

* `Expr.FromSource`: expressions that are parsed from a source.
* `Expr.text_unambiguous`: two of them have the same text just if their bare forms are the same.
-/

namespace Roteiro

/-- An expression that is parsed from a source: it stands at the front of the source, or anywhere in
the program that the source spells. -/
inductive Expr.FromSource (e : Expr) : Prop
  | front {source : String} {firstId : Nat}
    (h : (Parser.parseExpression (Token.tokenize source).1 firstId).tree? = some e) : FromSource e
  | within {source : String} {firstId : Nat} {program : List Stmt} {Γ : List Around}
    (h : (Parser.parseProgram (Token.tokenize source).1 firstId).tree? = some program)
    (he : (Node.stmt (.block program)).Inside Γ (.expr e)) : FromSource e

/-- What is parsed from a source is legible. -/
theorem Expr.FromSource.legible {e : Expr} (h : e.FromSource) : e.Legible := by
  cases h with
  | front h =>
    obtain ⟨⟨read, hread, hderives⟩, -⟩ := Parser.parseExpression_builds h
    exact hderives.legible fun t ht => Token.scanned_of_tokenize (hread.subset ht)
  | @within _ _ program _ h he =>
    have hlegible := (Parser.parseProgram_builds h).1.legible fun t => Token.scanned_of_tokenize
    have hblock : (Stmt.block program).Legible :=
      Node.throughout_iff.mpr ⟨trivial, by simpa using hlegible⟩
    exact hblock.inside he

/-- An expression that can be read back is told by its text, but for what is not printed. -/
theorem Expr.bare_eq_of_text_eq {e e' : Expr} (he : e.Legible) (he' : e'.Legible)
    (hplain : (Node.expr e).Throughout Node.Plain) (hplain' : (Node.expr e').Throughout Node.Plain)
    (h : e.text = e'.text) : e.bare = e'.bare := by
  have hread := Phrase.readsAs he hplain
  have hread' := Phrase.readsAs he' hplain'
  have hchars : e.phrase.chars = e'.phrase.chars := by
    rw [← e.toList_text, ← e'.toList_text, h]
  have hphrase : e.phrase = e'.phrase := Phrase.eq_of_chars_eq hread.proper hread'.proper hchars
  have hnode : Node.expr e.bare = Node.expr e'.bare := calc
    Node.expr e.bare = e.phrase.read := hread.read.symm
    _ = e'.phrase.read := by rw [hphrase]
    _ = Node.expr e'.bare := hread'.read
  exact Node.expr.inj hnode

/-- The text of an expression is that of its bare form. -/
theorem Expr.text_bare (e : Expr) : e.bare.text = e.text := by
  have hphrase : e.bare.phrase = e.phrase := (Node.expr e).phrase_bare
  rw [← String.toList_inj, e.bare.toList_text, e.toList_text, hphrase]

/-- **The text of an expression tells which one it is.** Two expressions that are parsed from
sources and hold no text, no number that is not finite and no loop with a step have the same text
just if they are the same but for the numbers of occurrences, the lines of tokens and the tokens
that are not printed. -/
theorem Expr.text_unambiguous {e e' : Expr} (he : e.FromSource) (he' : e'.FromSource)
    (hplain : (Node.expr e).Throughout Node.Plain)
    (hplain' : (Node.expr e').Throughout Node.Plain) :
    e.text = e'.text ↔ e.bare = e'.bare :=
  ⟨bare_eq_of_text_eq he.legible he'.legible hplain hplain', fun h => by
    rw [← e.text_bare, h, e'.text_bare]⟩

/-- The tokens of `f(-x, () => 1.50)`. -/
def shortLambda : List Token :=
  [⟨.identifier, "f", 1⟩, ⟨.leftParen, "(", 1⟩, ⟨.minus, "-", 1⟩, ⟨.identifier, "x", 1⟩,
   ⟨.comma, ",", 1⟩, ⟨.leftParen, "(", 1⟩, ⟨.rightParen, ")", 1⟩, ⟨.arrow, "=>", 1⟩,
   ⟨.number (Decimal.nearest 150 (-2)), "1.50", 1⟩, ⟨.rightParen, ")", 1⟩, ⟨.endOfInput, "", 1⟩]

/-- The tokens of `f(-x, () => { retorne 1.5; })`, on two lines. -/
def longLambda : List Token :=
  [⟨.identifier, "f", 1⟩, ⟨.leftParen, "(", 1⟩, ⟨.minus, "-", 1⟩, ⟨.identifier, "x", 1⟩,
   ⟨.comma, ",", 1⟩, ⟨.leftParen, "(", 1⟩, ⟨.rightParen, ")", 1⟩, ⟨.arrow, "=>", 1⟩,
   ⟨.leftBrace, "\x7b", 1⟩, ⟨.returnKw, "retorne", 2⟩,
   ⟨.number (Decimal.nearest 15 (-1)), "1.5", 2⟩, ⟨.semicolon, ";", 2⟩, ⟨.rightBrace, "\x7d", 2⟩,
   ⟨.rightParen, ")", 2⟩, ⟨.endOfInput, "", 2⟩]

/-- A call with `-x` and a lambda that gives a number, with the tokens that are not printed. -/
def callWithLambda (firstId : Nat) (paren keyword : Token) (number : Float) : Expr :=
  .call (.var firstId ⟨.identifier, "f", 1⟩) paren
    [.unary ⟨.minus, "-", 1⟩ (.var (firstId + 1) ⟨.identifier, "x", 1⟩),
     .lambda ⟨none, [], [.result keyword (some (.literal (.number number)))]⟩]

theorem plain_callWithLambda (firstId : Nat) (paren keyword : Token) (number : Float)
    (h : number.isFinite = true) :
    (Node.expr (callWithLambda firstId paren keyword number)).Throughout Node.Plain := by
  have hname : ∀ id name, (Node.expr (.var id name)).Throughout Node.Plain := fun _ _ =>
    Node.throughout_leaf trivial rfl
  have hnegated : ∀ operator id name,
      (Node.expr (.unary operator (.var id name))).Throughout Node.Plain := fun _ id name =>
    Node.throughout_iff.mpr ⟨trivial, by simpa using hname id name⟩
  have hnumber : (Node.expr (.literal (.number number))).Throughout Node.Plain :=
    Node.throughout_leaf h rfl
  have hresult : (Node.stmt (.result keyword (some (.literal (.number number))))).Throughout
      Node.Plain := Node.throughout_iff.mpr ⟨trivial, by simpa using hnumber⟩
  have hlambda : (Node.expr (.lambda ⟨none, [],
      [.result keyword (some (.literal (.number number)))]⟩)).Throughout Node.Plain :=
    Node.throughout_iff.mpr ⟨trivial, by simpa using hresult⟩
  have hparts := And.intro (hname firstId ⟨.identifier, "f", 1⟩) (And.intro
    (hnegated ⟨.minus, "-", 1⟩ (firstId + 1) ⟨.identifier, "x", 1⟩) hlambda)
  exact Node.throughout_iff.mpr ⟨trivial, by simpa [callWithLambda] using hparts⟩

/-- What `f(-x, () => 1.50)` stands for. -/
def shortCall : Expr :=
  callWithLambda 0 ⟨.rightParen, ")", 1⟩ ⟨.arrow, "=>", 1⟩ (Decimal.nearest 150 (-2))

/-- What `f(-x, () => { retorne 1.5; })` stands for, on two lines and with other numbers. -/
def longCall : Expr :=
  callWithLambda 5 ⟨.rightParen, ")", 2⟩ ⟨.returnKw, "retorne", 2⟩ (Decimal.nearest 15 (-1))

/-- The numbers, the lines, the parenthesis of the call and the keyword of the result are not the
same. -/
theorem Expr.text_unambiguous_lambda :
    (Parser.parseExpression (Token.tokenize "f(-x, () => 1.50)").1 0).tree? = some shortCall ∧
      (Parser.parseExpression
        (Token.tokenize "f(-x, () => \x7b\nretorne 1.5; \x7d)").1 5).tree? = some longCall ∧
      (Node.expr shortCall).Throughout Node.Plain ∧ (Node.expr longCall).Throughout Node.Plain ∧
      shortCall.text = longCall.text ∧ shortCall.bare = longCall.bare := by
  have htokens : Token.tokenize "f(-x, () => 1.50)" = (shortLambda, []) := by decide +kernel
  have htokens' : Token.tokenize "f(-x, () => \x7b\nretorne 1.5; \x7d)" = (longLambda, []) := by
    decide +kernel
  have hparsed : (Parser.parseExpression (Token.tokenize "f(-x, () => 1.50)").1 0).tree? =
      some shortCall := by
    rw [htokens]
    rfl
  have hparsed' : (Parser.parseExpression
      (Token.tokenize "f(-x, () => \x7b\nretorne 1.5; \x7d)").1 5).tree? = some longCall := by
    rw [htokens']
    rfl
  have hplain : (Node.expr shortCall).Throughout Node.Plain :=
    plain_callWithLambda _ _ _ _ (by decide +kernel)
  have hplain' : (Node.expr longCall).Throughout Node.Plain :=
    plain_callWithLambda _ _ _ _ (by decide +kernel)
  have htext : shortCall.text = longCall.text := by decide +kernel
  exact ⟨hparsed, hparsed', hplain, hplain', htext,
    (text_unambiguous (.front hparsed) (.front hparsed') hplain hplain').mp htext⟩

end Roteiro
