import Roteiro.Proofs.Parser.Soundness
import Roteiro.Proofs.Tree.ReadBack

/-!
# Trees from a source

The tokens of a source are told by their lexemes, but for parentheses and texts: the lexeme of any
other token is a word, and scanned on its own it is that token again. The names and operators in a
tree are tokens of the source, or the sign of a counting step, and its numbers are read from digits.

* `Token.inWord_chunk`: the characters of a token can stand in a word.
* `Token.Scanned.spelled`: a token of a source is told by its lexeme.
* `Derives.legible`: trees with a derivation from the tokens of a source are legible.
-/

namespace Roteiro

open Grammar Phrase

namespace Token

/-! ### Words of a source -/

variable {c : Char} {cs : List Char}

theorem inWord_double {next : Char} (hnext : inWord next = true) (long short : Kind) :
    ∀ d ∈ (double next long short cs).front, inWord d = true := by
  unfold double
  split
  · split
    · next h =>
      rw [h]
      exact List.forall_mem_singleton.mpr hnext
    · exact List.forall_mem_nil _
  · exact List.forall_mem_nil _

theorem inWord_equalSign : ∀ d ∈ (equalSign cs).front, inWord d = true := by
  unfold equalSign
  split
  · exact List.forall_mem_singleton.mpr (by decide)
  · exact List.forall_mem_singleton.mpr (by decide)
  · exact List.forall_mem_nil _

theorem inWord_doubled (kind : Kind) (hc : inWord c = true) :
    ∀ d ∈ (doubled kind c cs).front, inWord d = true := by
  unfold doubled
  split
  · split
    · next h =>
      rw [h]
      exact List.forall_mem_singleton.mpr hc
    · exact List.forall_mem_nil _
  · exact List.forall_mem_nil _

theorem inWord_of_isNameChar {d : Char} (h : Text.isNameChar d = true) : inWord d = true :=
  inWord_of (by decide +kernel) h

/-- Whether a token is neither a parenthesis nor a text. -/
def standsAsWord : Kind → Bool
  | .leftParen | .rightParen | .string _ => false
  | _ => true

/-- The characters of a token that is neither a parenthesis nor a text can stand in a word. -/
theorem inWord_chunk {kind : Kind} (h : (chunk c cs).reading = .token kind)
    (hkind : standsAsWord kind = true) : ∀ d ∈ c :: (chunk c cs).front, inWord d = true := by
  by_cases hdigit : c.isDigit = true
  · rw [chunk_of_isDigit hdigit]
    have hnumeral := isNumeral_number hdigit cs
    rw [← String.toList_ofList (l := c :: _)] at hnumeral
    simpa using (isWord_numeral hnumeral).2
  · by_cases hword : beginsWord c = true
    · rw [chunk_of_beginsWord hword]
      refine List.forall_mem_cons.mpr ⟨inWord_of_isNameChar (isNameChar_of_beginsWord hword), ?_⟩
      exact fun d hd => inWord_of_isNameChar (List.all_eq_true.mp List.all_takeWhile d hd)
    · revert h
      unfold chunk
      split <;> intro h
      case h_1 | h_2 =>
        cases h
        cases hkind
      case h_14 | h_15 | h_16 | h_17 | h_18 =>
        exact List.forall_mem_cons.mpr ⟨by decide, inWord_double (by decide) _ _⟩
      case h_19 => exact List.forall_mem_cons.mpr ⟨by decide, inWord_equalSign⟩
      case h_20 | h_21 =>
        exact List.forall_mem_cons.mpr ⟨by decide, inWord_doubled _ (by decide)⟩
      case h_22 | h_23 | h_24 | h_25 => cases h
      case h_26 =>
        by_cases hslash : cs.head? = some '/'
        · obtain ⟨es, rfl⟩ := List.head?_eq_some_iff.mp hslash
          cases h
        · rw [slash_short hslash]
          exact List.forall_mem_singleton.mpr (by decide)
      case h_27 | h_28 =>
        unfold quoted at h
        dsimp only at h
        split at h <;> cases h
        cases hkind
      case h_29 =>
        have hletter : Text.isLetter c ≠ true := fun hletter => hword (by simp [beginsWord, *])
        rw [if_neg hdigit, if_neg hletter] at h
        cases h
      all_goals exact List.forall_mem_singleton.mpr (by decide)

/-- A token of a source, but for the end marker. -/
structure Scanned (t : Token) : Prop where
  stands : t.Stands
  wellSpelled : t.WellSpelled

variable {t : Token}

/-- A token that is neither a parenthesis nor a text is told by its lexeme. -/
theorem Scanned.spelled (h : t.Scanned) (hkind : standsAsWord t.kind = true) : t.Spelled := by
  obtain ⟨c, cs, hlexeme, hchunk⟩ := h.stands
  have hwhole := hchunk [] apart_nil
  rw [List.append_nil] at hwhole
  have hlist : t.lexeme.toList = c :: cs := by rw [hlexeme, String.toList_ofList]
  refine ⟨by simp only [kindOf, hlist, hwhole], fun hempty => ?_, ?_⟩
  · rw [hempty] at hlist
    cases hlist
  · have hword := inWord_chunk (by rw [hwhole]) hkind
    rwa [hwhole, ← hlist] at hword

theorem Scanned.names (h : t.Scanned) (hkind : t.kind = .identifier) : t.Names :=
  ⟨h.spelled (by rw [hkind]; rfl), hkind⟩

theorem standsAsWord_of_isOperator {kind : Kind} (h : kind.isOperator = true) :
    standsAsWord kind = true := by
  cases kind <;> first | rfl | cases h

theorem Scanned.operator (h : t.Scanned) (hkind : t.kind.isOperator = true) : t.Spelled :=
  h.spelled (standsAsWord_of_isOperator hkind)

/-- The tokens of a source in front of its end marker. -/
theorem scanned_of_tokenize {source : String}
    (h : t ∈ (tokenize source).1.takeWhile (·.kind ≠ .endOfInput)) : t.Scanned := by
  have hmem : t ∈ (scanFrom 1 source.toList).filterMap Item.token? := List.takeWhile_subset _ h
  refine ⟨stands_of_scanFrom hmem ?_, wellSpelled_of_scanFrom hmem⟩
  simpa using List.all_eq_true.mp List.all_takeWhile t h

end Token

/-- An expression throughout which what comes from a source is right. -/
abbrev Expr.Legible (e : Expr) : Prop := (Node.expr e).Throughout Node.Legible

/-- A statement throughout which what comes from a source is right. -/
abbrev Stmt.Legible (s : Stmt) : Prop := (Node.stmt s).Throughout Node.Legible

/-- A function throughout which what comes from a source is right, but for its name. -/
structure FunctionDecl.Legible (f : FunctionDecl) : Prop where
  params : ∀ p ∈ f.params, p.Names
  body : ∀ s ∈ f.body, s.Legible

namespace Grammar

/-- What is right about the trees of a symbol. -/
@[simp] def Symbol.Legible : (x : Symbol) → x.Tree → Prop
  | declarations _, ss => ∀ s ∈ ss, s.Legible
  | declaration _, s => s.Legible
  | statement _ _, s => s.Legible
  | methods, fs => ∀ f ∈ fs, f.Named ∧ f.Legible
  | function name?, f => f.name? = name? ∧ f.Legible
  | variableRest, s => s.Legible
  | expressionStatement, s => s.Legible
  | loopStart, s? => ∀ s ∈ s?, s.Legible
  | optionalExpression, e? => ∀ e ∈ e?, e.Legible
  | expression, e => e.Legible
  | assignment, e => e.Legible
  | conditional, e => e.Legible
  | level _, e => e.Legible
  | operand _, e => e.Legible
  | unary, e => e.Legible
  | call, e => e.Legible
  | primary, e => e.Legible
  | expressions, es => ∀ e ∈ es, e.Legible
  | expressionList, es => ∀ e ∈ es, e.Legible

section

open Node

theorem legible_countedLoop {start : Option Stmt} {test step : Option Expr} {body : Stmt}
    (hstart : ∀ s ∈ start, s.Legible) (htest : ∀ e ∈ test, e.Legible)
    (hstep : ∀ e ∈ step, e.Legible) (hbody : body.Legible) :
    (Stmt.countedLoop start test step body).Legible := by
  have htest' : (test.getD (.literal (.boolean true))).Legible := by
    cases test with
    | none => exact throughout_leaf trivial rfl
    | some e => exact htest e rfl
  -- a start only puts a block around the loop
  have hloop : (Stmt.countedLoop none test step body).Legible := by
    cases step with
    | none => exact throughout_iff.mpr ⟨trivial, by simpa [Stmt.countedLoop] using ⟨htest', hbody⟩⟩
    | some e =>
      have he : (Stmt.expression e).Legible :=
        throughout_iff.mpr ⟨trivial, by simpa using hstep e rfl⟩
      have hblock : (Stmt.block [body, .expression e]).Legible :=
        throughout_iff.mpr ⟨trivial, by simpa using ⟨hbody, he⟩⟩
      have hparts := And.intro htest' (And.intro hblock he)
      exact throughout_iff.mpr ⟨trivial, by simpa [Stmt.countedLoop] using hparts⟩
  cases start with
  | none => exact hloop
  | some s =>
    have hparts := And.intro (hstart s rfl) hloop
    exact throughout_iff.mpr ⟨trivial, by simpa [Stmt.countedLoop] using hparts⟩

theorem legible_names {ts names : List Token} (h : Names ts names) (hts : ∀ t ∈ ts, t.Scanned) :
    ∀ name ∈ names, name.Names := by
  induction h with
  | last hname => exact List.forall_mem_singleton.mpr ((hts _ List.mem_cons_self).names hname)
  | more hname _ _ ih =>
    simp only [List.forall_mem_cons] at hts
    exact List.forall_mem_cons.mpr ⟨hts.1.names hname, ih hts.2.2⟩

theorem legible_parameters {ts names : List Token} (h : Parameters ts names)
    (hts : ∀ t ∈ ts, t.Scanned) : ∀ name ∈ names, name.Names := by
  obtain ⟨⟨-, rfl⟩ | hnames, -⟩ := h
  · exact List.forall_mem_nil _
  · exact legible_names hnames hts

/-- The step of a counting expression. -/
theorem legible_step {name step : Token} (hname : name.Names) (readId assignId : Nat) :
    (Expr.step readId assignId name (stepOperator step)).Legible := by
  have hoperator : (stepOperator step).Spelled ∧ (stepOperator step).kind.isOperator = true ∧
      (stepOperator step).kind.isConnective = false := by
    have hplus : Token.kindOf "+" = .plus ∧ IsWord "+" := by decide +kernel
    have hminus : Token.kindOf "-" = .minus ∧ IsWord "-" := by decide +kernel
    unfold stepOperator
    split
    · exact ⟨⟨hplus.1, hplus.2⟩, rfl, rfl⟩
    · exact ⟨⟨hminus.1, hminus.2⟩, rfl, rfl⟩
  have hread : (Expr.var readId name).Legible := throughout_leaf hname rfl
  have hone : (Expr.literal (.number (Decimal.nearest 1 0))).Legible :=
    throughout_leaf ⟨1, 0, rfl⟩ rfl
  have hvalue : (Expr.binary (.var readId name) (stepOperator step)
      (.literal (.number (Decimal.nearest 1 0)))).Legible :=
    throughout_iff.mpr ⟨hoperator, by simpa using ⟨hread, hone⟩⟩
  exact throughout_iff.mpr ⟨hname, by simpa [Expr.step] using hvalue⟩

/-- A constant that a token stands for. -/
theorem legible_constant {token : Token} {value : Literal} (h : token.Scanned)
    (hconstant : constant? token.kind = some value) : (Expr.literal value).Legible := by
  refine throughout_leaf ?_ rfl
  match value with
  | .number x =>
    have hkind : token.kind = .number x := by
      unfold constant? at hconstant
      split at hconstant <;> simp_all
    obtain ⟨hnumeral, hread⟩ := h.wellSpelled.number hkind
    exact Decimal.unsigned_of_read? hnumeral hread
  | .string _ | .boolean _ | .nil => trivial

/-- Operands joined by an operator of their level. -/
theorem legible_join {l : Parser.Level} {operator : Token} {left right : Expr}
    (hoperator : operator.Scanned) (hkind : l.operators operator.kind = true) (hleft : left.Legible)
    (hright : right.Legible) : (l.join left operator right).Legible := by
  have hparts := And.intro hleft hright
  cases l with
  | disjunction | conjunction =>
    have hconnective : operator.kind.isConnective = true := by
      rw [of_decide_eq_true hkind]
      rfl
    have hspelled := hoperator.operator (Kind.isOperator_of_isConnective hconnective)
    exact throughout_iff.mpr ⟨⟨hspelled, hconnective⟩, by simpa [Parser.Level.join] using hparts⟩
  | equality | comparison | sum | product =>
    have hbinary : operator.kind.isOperator = true ∧ operator.kind.isConnective = false := by
      generalize operator.kind = kind at hkind
      cases kind <;> first | exact ⟨rfl, rfl⟩ | cases hkind
    exact throughout_iff.mpr
      ⟨⟨hoperator.operator hbinary.1, hbinary⟩, by simpa [Parser.Level.join] using hparts⟩

/-- **What is parsed from a source is legible.** -/
theorem Derives.legible {x : Symbol} {ts : List Token} {t : x.Tree} (h : Derives x ts t)
    (hts : ∀ t ∈ ts, t.Scanned) : x.Legible t := by
  induction h with
  | noDeclarations | noMethods | noExpressions => exact List.forall_mem_nil _
  | moreDeclarations _ _ ihfirst ihothers =>
    exact List.forall_mem_cons.mpr
      ⟨ihfirst fun t ht => hts t (by simp [ht]), ihothers fun t ht => hts t (by simp [ht])⟩
  | classDeclaration _ hname _ _ _ ih =>
    have hmethods := ih fun t ht => hts t (by simp [ht])
    refine throughout_iff.mpr
      ⟨⟨(hts _ (by simp)).names hname, fun f hf => (hmethods f hf).1⟩, fun p hp => ?_⟩
    simp only [parts, List.mem_flatMap, List.mem_map] at hp
    obtain ⟨f, hf, s, hs, rfl⟩ := hp
    exact (hmethods f hf).2.body s hs
  | @functionDeclaration _ _ name _ decl _ hname _ ih =>
    obtain ⟨hdecl, hlegible⟩ := ih fun t ht => hts t (by simp [ht])
    have hnamed : decl.Named := ⟨⟨name, hdecl, (hts _ (by simp)).names hname⟩, hlegible.params⟩
    exact throughout_iff.mpr ⟨hnamed, by simpa using hlegible.body⟩
  | variableDeclaration _ _ ih | statementDeclaration _ ih | bareExpression _ ih
  | assignmentExpression _ ih | conditionalAssignment _ ih | noChoice _ ih | firstOperand _ ih
  | tighterOperand _ _ ih | unaryOperand _ _ ih | plain _ ih | noSuffix _ ih
  | someExpressions _ ih => exact ih fun t ht => hts t (by simp [ht])
  | @moreMethods _ name _ _ _ _ _ hname _ _ ihmethod ihothers =>
    obtain ⟨hmethod, hlegible⟩ := ihmethod fun t ht => hts t (by simp [ht])
    refine List.forall_mem_cons.mpr ⟨⟨⟨?_, hlegible.params⟩, hlegible⟩, ?_⟩
    · exact ⟨name, hmethod, (hts _ (by simp)).names hname⟩
    · exact ihothers fun t ht => hts t (by simp [ht])
  | function _ hparams _ _ _ _ ih =>
    refine ⟨rfl, legible_parameters hparams fun t ht => hts t (by simp [ht]), ?_⟩
    exact ih fun t ht => hts t (by simp [ht])
  | variableOnly hname => exact throughout_leaf ((hts _ (by simp)).names hname) rfl
  | variableValue hname _ _ _ ih =>
    have hvalue := ih fun t ht => hts t (by simp [ht])
    exact throughout_iff.mpr ⟨(hts _ (by simp)).names hname, by simpa using hvalue⟩
  | print _ _ _ ih | expressionStatement _ _ ih | group _ _ _ ih | array _ _ _ ih
  | block _ _ _ ih =>
    have hpart := ih fun t ht => hts t (by simp [ht])
    exact throughout_iff.mpr ⟨trivial, by simpa using hpart⟩
  | ifOnly _ _ _ _ _ ih ih' | whileLoop _ _ _ _ _ ih ih' | call _ _ _ _ _ ih ih'
  | entry _ _ _ _ ih ih' =>
    have hparts := And.intro (ih fun t ht => hts t (by simp [ht]))
      (ih' fun t ht => hts t (by simp [ht]))
    exact throughout_iff.mpr ⟨trivial, by simpa using hparts⟩
  | ifElse _ _ _ _ _ _ _ ih ih' ih'' | choice _ _ _ _ _ ih ih' ih''
  | assignEntry _ _ _ _ _ _ ih ih' ih'' =>
    have hparts := And.intro (ih fun t ht => hts t (by simp [ht]))
      (And.intro (ih' fun t ht => hts t (by simp [ht])) (ih'' fun t ht => hts t (by simp [ht])))
    exact throughout_iff.mpr ⟨trivial, by simpa using hparts⟩
  | countedLoop _ _ _ _ _ _ _ _ ihstart ihtest ihstep ihbody =>
    exact legible_countedLoop (ihstart fun t ht => hts t (by simp [ht]))
      (ihtest fun t ht => hts t (by simp [ht])) (ihstep fun t ht => hts t (by simp [ht]))
      (ihbody fun t ht => hts t (by simp [ht]))
  | exitLoop | nextIteration => exact throughout_leaf trivial rfl
  | @result _ _ _ _ _ value? _ _ _ ih =>
    cases value? with
    | none => exact throughout_leaf trivial rfl
    | some value =>
      have hvalue := ih (fun t ht => hts t (by simp [ht])) value rfl
      exact throughout_iff.mpr ⟨trivial, by simpa using hvalue⟩
  | noStart | noExpression => simp
  | startVariable _ _ ih | startExpression _ ih | someExpression _ ih =>
    simpa using ih fun t ht => hts t (by simp [ht])
  | step hname => exact legible_step ((hts _ (by simp)).names hname) _ _
  | lambdaBlock _ hparams _ _ _ _ _ ih =>
    have hbody := ih fun t ht => hts t (by simp [ht])
    have hnames := legible_parameters hparams fun t ht => hts t (by simp [ht])
    exact throughout_iff.mpr ⟨⟨rfl, hnames⟩, by simpa using hbody⟩
  | lambdaValue _ hparams _ _ _ ih =>
    have hvalue := ih fun t ht => hts t (by simp [ht])
    have hnames := legible_parameters hparams fun t ht => hts t (by simp [ht])
    have hresult : ∀ keyword, (Stmt.result keyword (some _)).Legible := fun _ =>
      throughout_iff.mpr ⟨trivial, by simpa using hvalue⟩
    exact throughout_iff.mpr ⟨⟨rfl, hnames⟩, by simpa using hresult _⟩
  | assignName hname _ _ ih =>
    have hvalue := ih fun t ht => hts t (by simp [ht])
    exact throughout_iff.mpr ⟨(hts _ (by simp)).names hname, by simpa using hvalue⟩
  | assignProperty _ _ hname _ _ ih ih' =>
    have hparts := And.intro (ih fun t ht => hts t (by simp [ht]))
      (ih' fun t ht => hts t (by simp [ht]))
    exact throughout_iff.mpr ⟨(hts _ (by simp)).names hname, by simpa using hparts⟩
  | property _ _ hname ih =>
    have hobject := ih fun t ht => hts t (by simp [ht])
    exact throughout_iff.mpr ⟨(hts _ (by simp)).names hname, by simpa using hobject⟩
  | join _ hoperator _ ihleft ihright =>
    exact legible_join (hts _ (by simp)) hoperator (ihleft fun t ht => hts t (by simp [ht]))
      (ihright fun t ht => hts t (by simp [ht]))
  | unary hoperator _ ih =>
    have hoperand := ih fun t ht => hts t (by simp [ht])
    have hkind : ∀ operator : Token, operator.kind = .bang ∨ operator.kind = .minus →
        operator.kind.isOperator = true := by
      rintro operator (h | h) <;> rw [h] <;> rfl
    have hspelled := (hts _ (by simp)).operator (hkind _ hoperator)
    exact throughout_iff.mpr ⟨⟨hspelled, hkind _ hoperator⟩, by simpa using hoperand⟩
  | constant hconstant => exact legible_constant (hts _ (by simp)) hconstant
  | receiver hkeyword =>
    have hspelled := (hts _ List.mem_cons_self).spelled (by rw [hkeyword]; rfl)
    exact throughout_leaf ⟨hspelled, hkeyword⟩ rfl
  | name hname => exact throughout_leaf ((hts _ (by simp)).names hname) rfl
  | lastExpression _ ih => exact List.forall_mem_singleton.mpr (ih hts)
  | moreExpressions _ _ _ ih ihothers =>
    exact List.forall_mem_cons.mpr
      ⟨ih fun t ht => hts t (by simp [ht]), ihothers fun t ht => hts t (by simp [ht])⟩

end

end Grammar

end Roteiro
