import Mathlib.Data.List.Forall2
import Roteiro.Report.Basic
import Roteiro.Tree.Basic

/-!
# Trees that differ in their numbers

The numbers of the occurrences in a tree depend on what was read before in the session, and the
lines of its tokens on what stands in front of the source. Nothing else does. Two trees are *twins*
if they are the same but for these numbers, which a `Renumbering` relates.

* `Expr.Twin`, `Stmt.Twin`, `FunctionDecl.Twin`: trees that are twins.
* `Stmt.Twin.eq`: twins with the same numbers are the same.
-/

namespace Roteiro

/-- Which lines and which numbers of occurrences correspond. Two numbers of one tree are the same if
those that correspond to them are. -/
structure Renumbering where
  line : Nat → Nat → Prop
  id : Nat → Nat → Prop
  id_iff : ∀ {i i' j j'}, id i i' → id j j' → (i = j ↔ i' = j')

/-- Numbers correspond to each other if they stay what they are. -/
theorem Renumbering.id_iff_of_eq {i i' j j' : Nat} (hi : i' = i) (hj : j' = j) : i = j ↔ i' = j' := by
  rw [hi, hj]

/-- Tokens that differ in their lines only. -/
structure Token.Twin (ρ : Renumbering) (t t' : Token) : Prop where
  kind : t'.kind = t.kind
  lexeme : t'.lexeme = t.lexeme
  line : ρ.line t.line t'.line

mutual

/-- Expressions that differ in their lines and in the numbers of their occurrences only. -/
inductive Expr.Twin (ρ : Renumbering) : Expr → Expr → Prop
  | literal {v} : Expr.Twin ρ (.literal v) (.literal v)
  | unary {o o' e e'} (ho : o.Twin ρ o') (he : Expr.Twin ρ e e') :
    Expr.Twin ρ (.unary o e) (.unary o' e')
  | binary {l l' o o' r r'} (hl : Expr.Twin ρ l l') (ho : o.Twin ρ o') (hr : Expr.Twin ρ r r') :
    Expr.Twin ρ (.binary l o r) (.binary l' o' r')
  | group {e e'} (he : Expr.Twin ρ e e') : Expr.Twin ρ (.group e) (.group e')
  | logical {l l' o o' r r'} (hl : Expr.Twin ρ l l') (ho : o.Twin ρ o') (hr : Expr.Twin ρ r r') :
    Expr.Twin ρ (.logical l o r) (.logical l' o' r')
  | conditional {test test' yes yes' no no'} (htest : Expr.Twin ρ test test')
      (hyes : Expr.Twin ρ yes yes') (hno : Expr.Twin ρ no no') :
    Expr.Twin ρ (.conditional test yes no) (.conditional test' yes' no')
  | var {i i' name name'} (hi : ρ.id i i') (hname : name.Twin ρ name') :
    Expr.Twin ρ (.var i name) (.var i' name')
  | assign {i i' name name' e e'} (hi : ρ.id i i') (hname : name.Twin ρ name')
      (he : Expr.Twin ρ e e') : Expr.Twin ρ (.assign i name e) (.assign i' name' e')
  | call {f f' paren paren' es es'} (hf : Expr.Twin ρ f f') (hparen : paren.Twin ρ paren')
      (hes : List.Forall₂ (Expr.Twin ρ) es es') :
    Expr.Twin ρ (.call f paren es) (.call f' paren' es')
  | lambda {f f'} (hf : FunctionDecl.Twin ρ f f') : Expr.Twin ρ (.lambda f) (.lambda f')
  | array {b b' es es'} (hb : b.Twin ρ b') (hes : List.Forall₂ (Expr.Twin ρ) es es') :
    Expr.Twin ρ (.array b es) (.array b' es')
  | index {b b' base base' key key'} (hb : b.Twin ρ b') (hbase : Expr.Twin ρ base base')
      (hkey : Expr.Twin ρ key key') : Expr.Twin ρ (.index b base key) (.index b' base' key')
  | indexSet {b b' base base' key key' e e'} (hb : b.Twin ρ b') (hbase : Expr.Twin ρ base base')
      (hkey : Expr.Twin ρ key key') (he : Expr.Twin ρ e e') :
    Expr.Twin ρ (.indexSet b base key e) (.indexSet b' base' key' e')
  | get {e e' name name'} (he : Expr.Twin ρ e e') (hname : name.Twin ρ name') :
    Expr.Twin ρ (.get e name) (.get e' name')
  | set {object object' name name' e e'} (hobject : Expr.Twin ρ object object')
      (hname : name.Twin ρ name') (he : Expr.Twin ρ e e') :
    Expr.Twin ρ (.set object name e) (.set object' name' e')
  | self {i i' keyword keyword'} (hi : ρ.id i i') (hkeyword : keyword.Twin ρ keyword') :
    Expr.Twin ρ (.self i keyword) (.self i' keyword')

/-- Statements that differ in their lines and in the numbers of their occurrences only. -/
inductive Stmt.Twin (ρ : Renumbering) : Stmt → Stmt → Prop
  | expression {e e'} (he : Expr.Twin ρ e e') : Stmt.Twin ρ (.expression e) (.expression e')
  | print {e e'} (he : Expr.Twin ρ e e') : Stmt.Twin ρ (.print e) (.print e')
  | var {name name' e? e?'} (hname : name.Twin ρ name') (he : Option.Rel (Expr.Twin ρ) e? e?') :
    Stmt.Twin ρ (.var name e?) (.var name' e?')
  | block {ss ss'} (hss : List.Forall₂ (Stmt.Twin ρ) ss ss') :
    Stmt.Twin ρ (.block ss) (.block ss')
  | ifElse {test test' yes yes' no? no?'} (htest : Expr.Twin ρ test test')
      (hyes : Stmt.Twin ρ yes yes') (hno : Option.Rel (Stmt.Twin ρ) no? no?') :
    Stmt.Twin ρ (.ifElse test yes no?) (.ifElse test' yes' no?')
  | loop {test test' body body' step? step?'} (htest : Expr.Twin ρ test test')
      (hbody : Stmt.Twin ρ body body') (hstep : Option.Rel (Stmt.Twin ρ) step? step?') :
    Stmt.Twin ρ (.loop test body step?) (.loop test' body' step?')
  | exitLoop {k k'} (hk : k.Twin ρ k') : Stmt.Twin ρ (.exitLoop k) (.exitLoop k')
  | nextIteration {k k'} (hk : k.Twin ρ k') : Stmt.Twin ρ (.nextIteration k) (.nextIteration k')
  | function {f f'} (hf : FunctionDecl.Twin ρ f f') : Stmt.Twin ρ (.function f) (.function f')
  | result {k k' e? e?'} (hk : k.Twin ρ k') (he : Option.Rel (Expr.Twin ρ) e? e?') :
    Stmt.Twin ρ (.result k e?) (.result k' e?')
  | classDecl {name name' fs fs'} (hname : name.Twin ρ name')
      (hfs : List.Forall₂ (FunctionDecl.Twin ρ) fs fs') :
    Stmt.Twin ρ (.classDecl name fs) (.classDecl name' fs')

/-- Functions that differ in their lines and in the numbers of their occurrences only. -/
inductive FunctionDecl.Twin (ρ : Renumbering) : FunctionDecl → FunctionDecl → Prop
  | mk {name? name?' params params' body body'} (hname : Option.Rel (Token.Twin ρ) name? name?')
      (hparams : List.Forall₂ (Token.Twin ρ) params params')
      (hbody : List.Forall₂ (Stmt.Twin ρ) body body') :
    FunctionDecl.Twin ρ ⟨name?, params, body⟩ ⟨name?', params', body'⟩

end

variable {ρ : Renumbering}

theorem Token.Twin.made {t t' : Token} (h : t.Twin ρ t') (kind : Kind) (lexeme : String) :
    Token.Twin ρ ⟨kind, lexeme, t.line⟩ ⟨kind, lexeme, t'.line⟩ :=
  ⟨rfl, rfl, h.line⟩

/-- Complaints about tokens that differ in their lines only. -/
inductive Report.Twin (ρ : Renumbering) : Report → Report → Prop
  | parse {t t'} (ht : t.Twin ρ t') (cause : Cause) :
    Report.Twin ρ (.parse t cause) (.parse t' cause)
  | resolve {t t'} (ht : t.Twin ρ t') (cause : Cause) :
    Report.Twin ρ (.resolve t cause) (.resolve t' cause)

/-! ### Twins with the same numbers -/

/-- All numbers correspond to themselves only. -/
structure Renumbering.Same (ρ : Renumbering) : Prop where
  line : ∀ {l l'}, ρ.line l l' → l' = l
  id : ∀ {i i'}, ρ.id i i' → i' = i

theorem Token.Twin.eq (hline : ∀ {l l'}, ρ.line l l' → l' = l) {t t' : Token}
    (h : t.Twin ρ t') : t' = t := by
  obtain ⟨kind, lexeme, line⟩ := t
  obtain ⟨kind', lexeme', line'⟩ := t'
  obtain ⟨hkind, hlexeme, hlines⟩ := h
  dsimp only at hkind hlexeme hlines
  rw [hkind, hlexeme, hline hlines]

theorem tokens_eq_of_twins (hline : ∀ {l l'}, ρ.line l l' → l' = l) {ts ts' : List Token}
    (h : List.Forall₂ (Token.Twin ρ) ts ts') : ts' = ts := by
  induction h with
  | nil => rfl
  | cons ht _ ih => rw [ht.eq hline, ih]

theorem reports_eq_of_twins (hline : ∀ {l l'}, ρ.line l l' → l' = l) {rs rs' : List Report}
    (h : List.Forall₂ (Report.Twin ρ) rs rs') : rs' = rs := by
  induction h with
  | nil => rfl
  | cons hr _ ih =>
    cases hr with
    | parse ht => rw [ht.eq hline, ih]
    | resolve ht => rw [ht.eq hline, ih]

mutual

theorem Expr.Twin.eq (hρ : ρ.Same) (e : Expr) {e' : Expr} (h : e.Twin ρ e') : e' = e := by
  match e, h with
  | .literal _, .literal => rfl
  | .unary _ operand, .unary ho he => rw [ho.eq hρ.line, Expr.Twin.eq hρ operand he]
  | .group inner, .group he => rw [Expr.Twin.eq hρ inner he]
  | .binary left _ right, .binary hl ho hr =>
    rw [Expr.Twin.eq hρ left hl, ho.eq hρ.line, Expr.Twin.eq hρ right hr]
  | .logical left _ right, .logical hl ho hr =>
    rw [Expr.Twin.eq hρ left hl, ho.eq hρ.line, Expr.Twin.eq hρ right hr]
  | .conditional test yes no, .conditional htest hyes hno =>
    rw [Expr.Twin.eq hρ test htest, Expr.Twin.eq hρ yes hyes, Expr.Twin.eq hρ no hno]
  | .var _ _, .var hi hname => rw [hρ.id hi, hname.eq hρ.line]
  | .self _ _, .self hi hkeyword => rw [hρ.id hi, hkeyword.eq hρ.line]
  | .assign _ _ value, .assign hi hname he =>
    rw [hρ.id hi, hname.eq hρ.line, Expr.Twin.eq hρ value he]
  | .call callee _ arguments, .call hf hparen hes =>
    rw [Expr.Twin.eq hρ callee hf, hparen.eq hρ.line, exprs_eq_of_twins hρ arguments hes]
  | .lambda decl, .lambda hf => rw [FunctionDecl.Twin.eq hρ decl hf]
  | .array _ elements, .array hb hes => rw [hb.eq hρ.line, exprs_eq_of_twins hρ elements hes]
  | .index _ base key, .index hb hbase hkey =>
    rw [hb.eq hρ.line, Expr.Twin.eq hρ base hbase, Expr.Twin.eq hρ key hkey]
  | .indexSet _ base key value, .indexSet hb hbase hkey he =>
    rw [hb.eq hρ.line, Expr.Twin.eq hρ base hbase, Expr.Twin.eq hρ key hkey, Expr.Twin.eq hρ value he]
  | .get object _, .get he hname => rw [Expr.Twin.eq hρ object he, hname.eq hρ.line]
  | .set object _ value, .set hobject hname he =>
    rw [Expr.Twin.eq hρ object hobject, hname.eq hρ.line, Expr.Twin.eq hρ value he]
termination_by structural e

theorem exprs_eq_of_twins (hρ : ρ.Same) (es : List Expr) {es' : List Expr}
    (h : List.Forall₂ (Expr.Twin ρ) es es') : es' = es := by
  match es, h with
  | [], .nil => rfl
  | e :: es, .cons he hes => rw [Expr.Twin.eq hρ e he, exprs_eq_of_twins hρ es hes]
termination_by structural es

theorem Stmt.Twin.eq (hρ : ρ.Same) (s : Stmt) {s' : Stmt} (h : s.Twin ρ s') : s' = s := by
  match s, h with
  | .expression e, .expression he => rw [Expr.Twin.eq hρ e he]
  | .print e, .print he => rw [Expr.Twin.eq hρ e he]
  | .var _ none, .var hname .none => rw [hname.eq hρ.line]
  | .var _ (some e), .var hname (.some he) => rw [hname.eq hρ.line, Expr.Twin.eq hρ e he]
  | .block body, .block hss => rw [stmts_eq_of_twins hρ body hss]
  | .ifElse test yes none, .ifElse htest hyes .none =>
    rw [Expr.Twin.eq hρ test htest, Stmt.Twin.eq hρ yes hyes]
  | .ifElse test yes (some no), .ifElse htest hyes (.some hno) =>
    rw [Expr.Twin.eq hρ test htest, Stmt.Twin.eq hρ yes hyes, Stmt.Twin.eq hρ no hno]
  | .loop test body none, .loop htest hbody .none =>
    rw [Expr.Twin.eq hρ test htest, Stmt.Twin.eq hρ body hbody]
  | .loop test body (some step), .loop htest hbody (.some hstep) =>
    rw [Expr.Twin.eq hρ test htest, Stmt.Twin.eq hρ body hbody, Stmt.Twin.eq hρ step hstep]
  | .exitLoop _, .exitLoop hk => rw [hk.eq hρ.line]
  | .nextIteration _, .nextIteration hk => rw [hk.eq hρ.line]
  | .function decl, .function hf => rw [FunctionDecl.Twin.eq hρ decl hf]
  | .result _ none, .result hk .none => rw [hk.eq hρ.line]
  | .result _ (some e), .result hk (.some he) => rw [hk.eq hρ.line, Expr.Twin.eq hρ e he]
  | .classDecl _ methods, .classDecl hname hfs =>
    rw [hname.eq hρ.line, functions_eq_of_twins hρ methods hfs]
termination_by structural s

theorem stmts_eq_of_twins (hρ : ρ.Same) (ss : List Stmt) {ss' : List Stmt}
    (h : List.Forall₂ (Stmt.Twin ρ) ss ss') : ss' = ss := by
  match ss, h with
  | [], .nil => rfl
  | s :: ss, .cons hs hss => rw [Stmt.Twin.eq hρ s hs, stmts_eq_of_twins hρ ss hss]
termination_by structural ss

theorem FunctionDecl.Twin.eq (hρ : ρ.Same) (f : FunctionDecl) {f' : FunctionDecl} (h : f.Twin ρ f') :
    f' = f := by
  match f, h with
  | ⟨none, _, body⟩, .mk .none hparams hbody =>
    rw [tokens_eq_of_twins hρ.line hparams, stmts_eq_of_twins hρ body hbody]
  | ⟨some _, _, body⟩, .mk (.some hname) hparams hbody =>
    rw [hname.eq hρ.line, tokens_eq_of_twins hρ.line hparams, stmts_eq_of_twins hρ body hbody]
termination_by structural f

theorem functions_eq_of_twins (hρ : ρ.Same) (fs : List FunctionDecl) {fs' : List FunctionDecl}
    (h : List.Forall₂ (FunctionDecl.Twin ρ) fs fs') : fs' = fs := by
  match fs, h with
  | [], .nil => rfl
  | f :: fs, .cons hf hfs => rw [FunctionDecl.Twin.eq hρ f hf, functions_eq_of_twins hρ fs hfs]
termination_by structural fs

end

end Roteiro
