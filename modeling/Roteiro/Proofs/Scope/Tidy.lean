import Roteiro.Proofs.Grammar
import Roteiro.Proofs.Scope.Analysis
import Roteiro.Proofs.Token.Words

/-!
# What the grammar promises about scopes

Trees could be built that no source has. Of the trees that have a derivation we know three things
that matter to scopes: a declaration stands in a list of statements, never alone behind a test or in
a loop; the step of a counted loop also ends its body; and no name, declared or used, is spelled
like the receiver, which is a word of its own.

* `Derives.tidy`: a tree with a derivation is tidy, if its tokens come from a scan.
-/

namespace Roteiro

open Scope Grammar

mutual

/-- The names of an expression are not those of the receiver, and its functions are tidy. -/
def Expr.Tidy : Expr → Prop
  | .literal _ => True
  | .unary _ operand => operand.Tidy
  | .binary left _ right => left.Tidy ∧ right.Tidy
  | .group inner => inner.Tidy
  | .logical left _ right => left.Tidy ∧ right.Tidy
  | .conditional test yes no => test.Tidy ∧ (yes.Tidy ∧ no.Tidy)
  | .var _ name => name.lexeme ≠ selfName
  | .assign _ name value => name.lexeme ≠ selfName ∧ value.Tidy
  | .call callee _ arguments => callee.Tidy ∧ tidyExprs arguments
  | .lambda decl => decl.Tidy
  | .array _ elements => tidyExprs elements
  | .index _ base key => base.Tidy ∧ key.Tidy
  | .indexSet _ base key value => base.Tidy ∧ (key.Tidy ∧ value.Tidy)
  | .get object _ => object.Tidy
  | .set object _ value => object.Tidy ∧ value.Tidy
  | .self _ _ => True

def tidyExprs : List Expr → Prop
  | [] => True
  | e :: es => e.Tidy ∧ tidyExprs es

/-- Declarations stand in lists and declare no receiver, and a step also ends the body of its
loop. -/
def Stmt.Tidy : Stmt → Prop
  | .expression expr => expr.Tidy
  | .print expr => expr.Tidy
  | .var name none => name.lexeme ≠ selfName
  | .var name (some value) => name.lexeme ≠ selfName ∧ value.Tidy
  | .block body => tidyStmts body
  | .ifElse test yes none => test.Tidy ∧ (yes.Tidy ∧ declared yes = [])
  | .ifElse test yes (some no) =>
    test.Tidy ∧ ((yes.Tidy ∧ declared yes = []) ∧ (no.Tidy ∧ declared no = []))
  | .loop test body none => test.Tidy ∧ (body.Tidy ∧ declared body = [])
  | .loop test (.block [body, .expression e]) (some step) =>
    test.Tidy ∧ (step = .expression e ∧ (e.Tidy ∧ (body.Tidy ∧ declared body = [])))
  | .loop _ _ (some _) => False
  | .exitLoop _ => True
  | .nextIteration _ => True
  | .function decl => decl.Tidy
  | .result _ none => True
  | .result _ (some value) => value.Tidy
  | .classDecl name methods => name.lexeme ≠ selfName ∧ tidyMethods methods

def tidyStmts : List Stmt → Prop
  | [] => True
  | s :: ss => s.Tidy ∧ tidyStmts ss

def FunctionDecl.Tidy : FunctionDecl → Prop
  | ⟨name?, params, body⟩ =>
    (∀ name ∈ name?, name.lexeme ≠ selfName) ∧ ((∀ p ∈ params, p.lexeme ≠ selfName) ∧ tidyStmts body)

def tidyMethods : List FunctionDecl → Prop
  | [] => True
  | f :: fs => f.Tidy ∧ tidyMethods fs

end

/-- The body of a loop with a step is a block that the step ends. -/
theorem Stmt.Tidy.loop {test : Expr} {body step : Stmt} (h : (Stmt.loop test body (some step)).Tidy) :
    ∃ b e, body = .block [b, .expression e] ∧ step = .expression e ∧ test.Tidy ∧ e.Tidy ∧
      b.Tidy ∧ declared b = [] := by
  by_cases hshape : ∃ b e, body = .block [b, .expression e]
  · obtain ⟨b, e, rfl⟩ := hshape
    rw [Stmt.Tidy] at h
    obtain ⟨htest, hstep, he, hb, hdeclared⟩ := h
    exact ⟨b, e, rfl, hstep, htest, he, hb, hdeclared⟩
  · rw [Stmt.Tidy] at h
    · exact h.elim
    · rintro b e rfl
      exact hshape ⟨b, e, rfl⟩

theorem tidy_of_mem {ss : List Stmt} (h : tidyStmts ss) {s : Stmt} (hs : s ∈ ss) : s.Tidy := by
  induction ss with
  | nil => cases hs
  | cons t ss ih =>
    rcases List.mem_cons.mp hs with rfl | hs
    · exact h.1
    · exact ih h.2 hs

/-- The names that a tidy statement declares are not those of the receiver. -/
theorem Stmt.Tidy.ne_selfName {s : Stmt} (h : s.Tidy) :
    ∀ name ∈ declared s, name.lexeme ≠ selfName := by
  cases s with
  | var name e? =>
    cases e? with
    | none => exact List.forall_mem_singleton.mpr h
    | some e => exact List.forall_mem_singleton.mpr h.1
  | function decl =>
    obtain ⟨name?, params, body⟩ := decl
    exact fun name hname => h.1 name (Option.mem_toList.mp hname)
  | classDecl name methods => exact List.forall_mem_singleton.mpr h.1
  | ifElse test yes no? =>
    cases no? with
    | none =>
      rw [declared, h.2.2]
      exact nofun
    | some no =>
      rw [declared, h.2.1.2, h.2.2.2]
      exact nofun
  | loop test body step? =>
    cases step? with
    | none =>
      rw [declared, h.2.2]
      exact nofun
    | some step =>
      obtain ⟨b, e, rfl, -⟩ := h.loop
      exact fun name hname => absurd hname List.not_mem_nil
  | _ => exact fun name hname => absurd hname List.not_mem_nil

namespace Grammar

/-- Tidiness of the trees of a symbol. What is no declaration declares nothing. -/
def Symbol.Tidy : (x : Symbol) → x.Tree → Prop
  | declarations _, ss => tidyStmts ss
  | declaration _, s => s.Tidy
  | statement _ _, s => s.Tidy ∧ declared s = []
  | methods, fs => tidyMethods fs
  | function name?, f => (∀ name ∈ name?, name.lexeme ≠ selfName) → f.Tidy
  | variableRest, s => s.Tidy
  | expressionStatement, s => s.Tidy ∧ declared s = []
  | loopStart, s? => ∀ s ∈ s?, s.Tidy
  | optionalExpression, e? => ∀ e ∈ e?, e.Tidy
  | expression, e => e.Tidy
  | assignment, e => e.Tidy
  | conditional, e => e.Tidy
  | level _, e => e.Tidy
  | operand _, e => e.Tidy
  | unary, e => e.Tidy
  | call, e => e.Tidy
  | primary, e => e.Tidy
  | expressions, es => tidyExprs es
  | expressionList, es => tidyExprs es

/-- The names among some tokens are not those of the receiver. -/
def NoSelf (ts : List Token) : Prop := ∀ t ∈ ts, t.kind = .identifier → t.lexeme ≠ selfName

theorem noSelf_cons {t : Token} {ts : List Token} :
    NoSelf (t :: ts) ↔ (t.kind = .identifier → t.lexeme ≠ selfName) ∧ NoSelf ts :=
  List.forall_mem_cons

theorem noSelf_append {ts us : List Token} : NoSelf (ts ++ us) ↔ NoSelf ts ∧ NoSelf us :=
  List.forall_mem_append

theorem noSelf_names {ts names : List Token} (h : Names ts names) (hts : NoSelf ts) :
    ∀ name ∈ names, name.lexeme ≠ selfName := by
  induction h with
  | last hname => exact List.forall_mem_singleton.mpr ((noSelf_cons.mp hts).1 hname)
  | more hname _ _ ih =>
    simp only [noSelf_cons] at hts
    exact List.forall_mem_cons.mpr ⟨hts.1 hname, ih hts.2.2⟩

theorem noSelf_parameters {ts params : List Token} (h : Parameters ts params) (hts : NoSelf ts) :
    ∀ p ∈ params, p.lexeme ≠ selfName := by
  rcases h.1 with ⟨-, rfl⟩ | hnames
  · exact nofun
  · exact noSelf_names hnames hts

theorem tidy_countedLoop {start : Option Stmt} {test step : Option Expr} {body : Stmt}
    (hstart : ∀ s ∈ start, s.Tidy) (htest : ∀ e ∈ test, e.Tidy) (hstep : ∀ e ∈ step, e.Tidy)
    (hbody : body.Tidy ∧ declared body = []) :
    (Stmt.countedLoop start test step body).Tidy ∧
      declared (Stmt.countedLoop start test step body) = [] := by
  have hloop : (Stmt.countedLoop none test step body).Tidy ∧
      declared (Stmt.countedLoop none test step body) = [] := by
    cases test <;> cases step <;>
      simp_all [Stmt.countedLoop, Stmt.Tidy, Expr.Tidy, declared]
  cases start with
  | none => exact hloop
  | some s => exact ⟨⟨hstart s rfl, hloop.1, trivial⟩, rfl⟩

/-- **Trees with a derivation are tidy.** -/
theorem Derives.tidy {x : Symbol} {ts : List Token} {t : x.Tree} (h : Derives x ts t)
    (hts : NoSelf ts) : x.Tidy t := by
  induction h with
  | noDeclarations | noMethods | noExpressions => trivial
  | moreDeclarations _ _ ihfirst ihothers =>
    obtain ⟨hfirst, hothers⟩ := noSelf_append.mp hts
    exact ⟨ihfirst hfirst, ihothers hothers⟩
  | classDeclaration _ hname _ _ _ ih =>
    simp only [noSelf_cons, noSelf_append] at hts
    exact ⟨hts.2.1 hname, ih hts.2.2.2.1⟩
  | functionDeclaration _ hname _ ih =>
    simp only [noSelf_cons] at hts
    refine ih hts.2.2 fun name h => ?_
    cases h
    exact hts.2.1 hname
  | variableDeclaration _ _ ih => exact ih (noSelf_cons.mp hts).2
  | statementDeclaration _ ih => exact (ih hts).1
  | moreMethods _ hname _ _ ihmethod ihothers =>
    simp only [noSelf_cons, noSelf_append] at hts
    refine ⟨ihmethod hts.2.2.1 fun name h => ?_, ihothers hts.2.2.2⟩
    cases h
    exact hts.2.1 hname
  | function _ hparams _ _ _ _ ih =>
    simp only [noSelf_cons, noSelf_append] at hts
    exact fun hname => ⟨hname, noSelf_parameters hparams hts.2.1, ih hts.2.2.2.2.1⟩
  | variableOnly hname => exact (noSelf_cons.mp hts).1 hname
  | variableValue hname _ _ _ ih =>
    simp only [noSelf_cons, noSelf_append] at hts
    exact ⟨hts.1 hname, ih hts.2.2.1⟩
  | print _ _ _ ih =>
    simp only [noSelf_cons, noSelf_append] at hts
    exact ⟨ih hts.2.1, rfl⟩
  | ifOnly _ _ _ _ _ ihtest ihyes =>
    simp only [noSelf_cons, noSelf_append] at hts
    have hyes := ihyes hts.2.2.2.2
    exact ⟨⟨ihtest hts.2.2.1, hyes⟩, hyes.2⟩
  | ifElse _ _ _ _ _ _ _ ihtest ihyes ihno =>
    simp only [noSelf_cons, noSelf_append] at hts
    have hyes := ihyes hts.2.2.2.2.1
    have hno := ihno hts.2.2.2.2.2.2
    refine ⟨⟨ihtest hts.2.2.1, hyes, hno⟩, ?_⟩
    rw [declared, hyes.2, hno.2]
    rfl
  | block _ _ _ ih =>
    simp only [noSelf_cons, noSelf_append] at hts
    exact ⟨ih hts.2.1, rfl⟩
  | whileLoop _ _ _ _ _ ihtest ihbody =>
    simp only [noSelf_cons, noSelf_append] at hts
    have hbody := ihbody hts.2.2.2.2
    exact ⟨⟨ihtest hts.2.2.1, hbody⟩, hbody.2⟩
  | countedLoop _ _ _ _ _ _ _ _ ihstart ihtest ihstep ihbody =>
    simp only [noSelf_cons, noSelf_append] at hts
    exact tidy_countedLoop (ihstart hts.2.2.1) (ihtest hts.2.2.2.1) (ihstep hts.2.2.2.2.2.1)
      (ihbody hts.2.2.2.2.2.2.2)
  | exitLoop => exact ⟨trivial, rfl⟩
  | nextIteration => exact ⟨trivial, rfl⟩
  | @result _ _ _ _ _ value? _ _ _ ih =>
    simp only [noSelf_cons, noSelf_append] at hts
    refine ⟨?_, rfl⟩
    cases value? with
    | none => trivial
    | some value => exact ih hts.2.1 value rfl
  | bareExpression _ ih => exact ih hts
  | expressionStatement _ _ ih => exact ⟨ih (noSelf_append.mp hts).1, rfl⟩
  | noStart => exact fun s hs => by cases hs
  | startVariable _ _ ih =>
    intro s hs
    cases hs
    exact ih (noSelf_cons.mp hts).2
  | startExpression _ ih =>
    intro s hs
    cases hs
    exact (ih hts).1
  | noExpression => exact fun e he => by cases he
  | someExpression _ ih =>
    intro e he
    cases he
    exact ih hts
  | step hname =>
    have hself := (noSelf_cons.mp hts).1 hname
    exact ⟨hself, hself, trivial⟩
  | lambdaBlock _ hparams _ _ _ _ _ ih =>
    simp only [noSelf_cons, noSelf_append] at hts
    exact ⟨nofun, noSelf_parameters hparams hts.2.1, ih hts.2.2.2.2.2.1⟩
  | lambdaValue _ hparams _ _ _ ih =>
    simp only [noSelf_cons, noSelf_append] at hts
    exact ⟨nofun, noSelf_parameters hparams hts.2.1, ih hts.2.2.2.2, trivial⟩
  | assignmentExpression _ ih => exact ih hts
  | assignName hname _ _ ih =>
    simp only [noSelf_cons] at hts
    exact ⟨hts.1 hname, ih hts.2.2⟩
  | assignProperty _ _ _ _ _ ihobject ihvalue =>
    simp only [noSelf_cons, noSelf_append] at hts
    exact ⟨ihobject hts.1, ihvalue hts.2.2.2.2⟩
  | assignEntry _ _ _ _ _ _ ihbase ihkey ihvalue =>
    simp only [noSelf_cons, noSelf_append] at hts
    exact ⟨ihbase hts.1, ihkey hts.2.2.1, ihvalue hts.2.2.2.2.2⟩
  | conditionalAssignment _ ih => exact ih hts
  | choice _ _ _ _ _ ihtest ihyes ihno =>
    simp only [noSelf_cons, noSelf_append] at hts
    exact ⟨ihtest hts.1, ihyes hts.2.2.1, ihno hts.2.2.2.2⟩
  | noChoice _ ih => exact ih hts
  | @join l _ _ _ _ _ _ _ _ ihleft ihright =>
    simp only [noSelf_cons, noSelf_append] at hts
    cases l <;> exact ⟨ihleft hts.1, ihright hts.2.2⟩
  | firstOperand _ ih => exact ih hts
  | tighterOperand _ _ ih => exact ih hts
  | unaryOperand _ _ ih => exact ih hts
  | unary _ _ ih => exact ih (noSelf_cons.mp hts).2
  | plain _ ih => exact ih hts
  | call _ _ _ _ _ ihcallee iharguments =>
    simp only [noSelf_cons, noSelf_append] at hts
    exact ⟨ihcallee hts.1, iharguments hts.2.2.1⟩
  | property _ _ _ ih => exact ih (noSelf_append.mp hts).1
  | entry _ _ _ _ ihbase ihkey =>
    simp only [noSelf_cons, noSelf_append] at hts
    exact ⟨ihbase hts.1, ihkey hts.2.2.1⟩
  | noSuffix _ ih => exact ih hts
  | constant => trivial
  | receiver => trivial
  | name hname => exact (noSelf_cons.mp hts).1 hname
  | group _ _ _ ih =>
    simp only [noSelf_cons, noSelf_append] at hts
    exact ih hts.2.1
  | array _ _ _ ih =>
    simp only [noSelf_cons, noSelf_append] at hts
    exact ih hts.2.1
  | someExpressions _ ih => exact ih hts
  | lastExpression _ ih => exact ⟨ih hts, trivial⟩
  | moreExpressions _ _ _ ih ihothers =>
    simp only [noSelf_cons, noSelf_append] at hts
    exact ⟨ih hts.1, ihothers hts.2.2⟩

end Grammar

/-! ### Names in a scan -/

namespace Token

theorem ofWord_selfName : Kind.ofWord selfName = .selfKw := by decide +kernel

/-- A name is not spelled like the receiver, which is no name. -/
theorem noSelf_scanFrom (line : Nat) (cs : List Char) :
    Grammar.NoSelf ((scanFrom line cs).filterMap Item.token?) := by
  intro t ht hkind hself
  have hword := ofWord_of_scanFrom ht (by rw [hkind]; rfl)
  rw [hself, ofWord_selfName, hkind] at hword
  cases hword

theorem noSelf_tokenize (source : String) : Grammar.NoSelf (tokenize source).1 :=
  noSelf_scanFrom 1 source.toList

end Token

end Roteiro
