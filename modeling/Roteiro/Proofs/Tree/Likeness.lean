import Roteiro.Proofs.Tree.Twins

/-!
# Trees of one shape

Two programs that are written differently may have trees of one shape: the same constructs in the
same places, with other tokens and other numbers in them. Which tokens and numbers may stand in each
other's place is what a `Likeness` says. It may depend on the scopes around: each of them has a
mark, and the marks of the scopes around a place, innermost first and with that of the globals at
the end, are known there. The marks are chosen where a scope begins, so that a likeness can tell the
scopes in which something is different from those in which nothing is.

* `Expr.Like`, `Stmt.Like`, `FunctionDecl.Like`: trees of one shape.
* `Stmt.Like.mono`: they stay so when more may be different.
* `Stmt.Twin.like`: twins are of one shape, in scopes without marks.
* `Stmt.Like.twin`: trees of one shape in which nothing but lines and numbers differ are twins.
-/

namespace Roteiro

/-- What may stand in each other's place in two trees of one shape. -/
structure Likeness where
  /-- Tokens that a run looks at: operators, brackets and the names of properties. -/
  token : Token → Token → Prop
  /-- Keywords, of which a run sees the kind at most. -/
  keyword : Token → Token → Prop
  /-- Occurrences of names, with their numbers, by the marks of the scopes around them. -/
  occurrence : List Bool → Nat → Token → Nat → Token → Prop
  /-- Names of variables and parameters, by the mark of the scope that they are declared in. -/
  binder : Bool → Token → Token → Prop
  /-- Names of functions and classes. -/
  named : Bool → Token → Token → Prop
  /-- Whether a function without a name may be declared in a scope with this mark. -/
  unnamed : Bool → Prop

/-- The mark of the innermost scope. -/
def innermost (bs : List Bool) : Bool := bs.headD false

mutual

/-- Expressions of one shape. -/
inductive Expr.Like (L : Likeness) : List Bool → Expr → Expr → Prop
  | literal {bs v} : Expr.Like L bs (.literal v) (.literal v)
  | unary {bs o o' e e'} (ho : L.token o o') (he : Expr.Like L bs e e') :
    Expr.Like L bs (.unary o e) (.unary o' e')
  | binary {bs l l' o o' r r'} (hl : Expr.Like L bs l l') (ho : L.token o o')
      (hr : Expr.Like L bs r r') : Expr.Like L bs (.binary l o r) (.binary l' o' r')
  | group {bs e e'} (he : Expr.Like L bs e e') : Expr.Like L bs (.group e) (.group e')
  | logical {bs l l' o o' r r'} (hl : Expr.Like L bs l l') (ho : L.keyword o o')
      (hr : Expr.Like L bs r r') : Expr.Like L bs (.logical l o r) (.logical l' o' r')
  | conditional {bs test test' yes yes' no no'} (htest : Expr.Like L bs test test')
      (hyes : Expr.Like L bs yes yes') (hno : Expr.Like L bs no no') :
    Expr.Like L bs (.conditional test yes no) (.conditional test' yes' no')
  | var {bs i i' name name'} (hname : L.occurrence bs i name i' name') :
    Expr.Like L bs (.var i name) (.var i' name')
  | assign {bs i i' name name' e e'} (hname : L.occurrence bs i name i' name')
      (he : Expr.Like L bs e e') : Expr.Like L bs (.assign i name e) (.assign i' name' e')
  | call {bs f f' paren paren' es es'} (hf : Expr.Like L bs f f') (hparen : L.token paren paren')
      (hes : ExprsLike L bs es es') : Expr.Like L bs (.call f paren es) (.call f' paren' es')
  | lambda {bs f f'} (hf : FunctionDecl.Like L false bs f f') :
    Expr.Like L bs (.lambda f) (.lambda f')
  | array {bs b b' es es'} (hb : L.token b b') (hes : ExprsLike L bs es es') :
    Expr.Like L bs (.array b es) (.array b' es')
  | index {bs b b' base base' key key'} (hb : L.token b b') (hbase : Expr.Like L bs base base')
      (hkey : Expr.Like L bs key key') : Expr.Like L bs (.index b base key) (.index b' base' key')
  | indexSet {bs b b' base base' key key' e e'} (hb : L.token b b')
      (hbase : Expr.Like L bs base base') (hkey : Expr.Like L bs key key')
      (he : Expr.Like L bs e e') :
    Expr.Like L bs (.indexSet b base key e) (.indexSet b' base' key' e')
  | get {bs e e' name name'} (he : Expr.Like L bs e e') (hname : L.token name name') :
    Expr.Like L bs (.get e name) (.get e' name')
  | set {bs object object' name name' e e'} (hobject : Expr.Like L bs object object')
      (hname : L.token name name') (he : Expr.Like L bs e e') :
    Expr.Like L bs (.set object name e) (.set object' name' e')
  | self {bs i i' keyword keyword'} (hkeyword : L.occurrence bs i keyword i' keyword') :
    Expr.Like L bs (.self i keyword) (.self i' keyword')

inductive ExprsLike (L : Likeness) : List Bool → List Expr → List Expr → Prop
  | nil {bs} : ExprsLike L bs [] []
  | cons {bs e e' es es'} (he : Expr.Like L bs e e') (hes : ExprsLike L bs es es') :
    ExprsLike L bs (e :: es) (e' :: es')

/-- Statements of one shape. -/
inductive Stmt.Like (L : Likeness) : List Bool → Stmt → Stmt → Prop
  | expression {bs e e'} (he : Expr.Like L bs e e') :
      Stmt.Like L bs (.expression e) (.expression e')
  | print {bs e e'} (he : Expr.Like L bs e e') : Stmt.Like L bs (.print e) (.print e')
  | var {bs name name'} (hname : L.binder (innermost bs) name name') :
    Stmt.Like L bs (.var name none) (.var name' none)
  | varValue {bs name name' e e'} (hname : L.binder (innermost bs) name name')
      (he : Expr.Like L bs e e') : Stmt.Like L bs (.var name (some e)) (.var name' (some e'))
  | block {b bs ss ss'} (hss : StmtsLike L (b :: bs) ss ss') :
    Stmt.Like L bs (.block ss) (.block ss')
  | ifThen {bs test test' yes yes'} (htest : Expr.Like L bs test test')
      (hyes : Stmt.Like L bs yes yes') :
    Stmt.Like L bs (.ifElse test yes none) (.ifElse test' yes' none)
  | ifElse {bs test test' yes yes' no no'} (htest : Expr.Like L bs test test')
      (hyes : Stmt.Like L bs yes yes') (hno : Stmt.Like L bs no no') :
    Stmt.Like L bs (.ifElse test yes (some no)) (.ifElse test' yes' (some no'))
  | loop {bs test test' body body'} (htest : Expr.Like L bs test test')
      (hbody : Stmt.Like L bs body body') :
    Stmt.Like L bs (.loop test body none) (.loop test' body' none)
  | loopStep {b bs test test' body body' step step'} (htest : Expr.Like L bs test test')
      (hbody : Stmt.Like L bs body body') (hstep : Stmt.Like L (b :: bs) step step') :
    Stmt.Like L bs (.loop test body (some step)) (.loop test' body' (some step'))
  | exitLoop {bs k k'} (hk : L.keyword k k') : Stmt.Like L bs (.exitLoop k) (.exitLoop k')
  | nextIteration {bs k k'} (hk : L.keyword k k') :
    Stmt.Like L bs (.nextIteration k) (.nextIteration k')
  | function {bs f f'} (hname : f.name? = none → L.unnamed (innermost bs))
      (hf : FunctionDecl.Like L (innermost bs) bs f f') :
    Stmt.Like L bs (.function f) (.function f')
  | result {bs k k'} (hk : L.keyword k k') : Stmt.Like L bs (.result k none) (.result k' none)
  | resultValue {bs k k' e e'} (hk : L.keyword k k') (he : Expr.Like L bs e e') :
    Stmt.Like L bs (.result k (some e)) (.result k' (some e'))
  /-- The scope of a receiver has no mark. -/
  | classDecl {bs name name' fs fs'} (hname : L.named (innermost bs) name name')
      (hfs : FunctionsLike L (false :: bs) fs fs') :
    Stmt.Like L bs (.classDecl name fs) (.classDecl name' fs')

inductive StmtsLike (L : Likeness) : List Bool → List Stmt → List Stmt → Prop
  | nil {bs} : StmtsLike L bs [] []
  | cons {bs s s' ss ss'} (hs : Stmt.Like L bs s s') (hss : StmtsLike L bs ss ss') :
    StmtsLike L bs (s :: ss) (s' :: ss')

/-- Functions of one shape. The first mark is that of the scope in which the name of the function is
declared. -/
inductive FunctionDecl.Like (L : Likeness) : Bool → List Bool → FunctionDecl → FunctionDecl → Prop
  | mk {b c bs name? name?' params params' body body'}
      (hname : Option.Rel (L.named b) name? name?')
      (hparams : List.Forall₂ (L.binder c) params params')
      (hbody : StmtsLike L (c :: bs) body body') :
    FunctionDecl.Like L b bs ⟨name?, params, body⟩ ⟨name?', params', body'⟩

inductive FunctionsLike (L : Likeness) : List Bool → List FunctionDecl → List FunctionDecl → Prop
  | nil {bs} : FunctionsLike L bs [] []
  | cons {bs f f' fs fs'} (hf : FunctionDecl.Like L false bs f f')
      (hfs : FunctionsLike L bs fs fs') : FunctionsLike L bs (f :: fs) (f' :: fs')

end

variable {L : Likeness}

theorem FunctionDecl.Like.arity {b : Bool} {bs : List Bool} {f f' : FunctionDecl}
    (h : f.Like L b bs f') : f'.arity = f.arity := by
  cases h with
  | mk _ hparams _ => exact hparams.length_eq.symm

/-- Functions with names that are spelled the same have the same name. -/
theorem FunctionDecl.Like.displayName (hL : ∀ {b n n'}, L.named b n n' → n'.lexeme = n.lexeme)
    {b : Bool} {bs : List Bool} {f f' : FunctionDecl} (h : f.Like L b bs f') :
    f'.displayName = f.displayName := by
  cases h with
  | mk hname _ _ =>
    cases hname with
    | none => rfl
    | some hname => exact hL hname

/-- Complaints of one cause, about tokens that correspond. -/
inductive Report.Like (R : Token → Token → Prop) : Report → Report → Prop
  | parse {t t'} (ht : R t t') (cause : Cause) : Report.Like R (.parse t cause) (.parse t' cause)
  | resolve {t t'} (ht : R t t') (cause : Cause) :
    Report.Like R (.resolve t cause) (.resolve t' cause)

/-! ### More that may be different -/

/-- Whatever may stand in each other's place by `L` may do so by `L'`. -/
structure Likeness.Le (L L' : Likeness) : Prop where
  token : ∀ {t t'}, L.token t t' → L'.token t t'
  keyword : ∀ {t t'}, L.keyword t t' → L'.keyword t t'
  occurrence : ∀ {bs i n i' n'}, L.occurrence bs i n i' n' → L'.occurrence bs i n i' n'
  binder : ∀ {b n n'}, L.binder b n n' → L'.binder b n n'
  named : ∀ {b n n'}, L.named b n n' → L'.named b n n'
  unnamed : ∀ {b}, L.unnamed b → L'.unnamed b

section Mono

variable {L' : Likeness}

theorem rel_imp {α β : Type} {R R' : α → β → Prop} (hR : ∀ a b, R a b → R' a b)
    {x : Option α} {y : Option β} (h : Option.Rel R x y) : Option.Rel R' x y := by
  cases h with
  | none => exact .none
  | some h => exact .some (hR _ _ h)

mutual

theorem Expr.Like.mono (hL : L.Le L') (e : Expr) {e' : Expr} {bs : List Bool}
    (h : e.Like L bs e') : e.Like L' bs e' := by
  match e, h with
  | .literal _, .literal => exact .literal
  | .unary _ operand, .unary ho he => exact .unary (hL.token ho) (Expr.Like.mono hL operand he)
  | .group inner, .group he => exact .group (Expr.Like.mono hL inner he)
  | .binary left _ right, .binary hl ho hr =>
    exact .binary (Expr.Like.mono hL left hl) (hL.token ho) (Expr.Like.mono hL right hr)
  | .logical left _ right, .logical hl ho hr =>
    exact .logical (Expr.Like.mono hL left hl) (hL.keyword ho) (Expr.Like.mono hL right hr)
  | .conditional test yes no, .conditional htest hyes hno =>
    exact .conditional (Expr.Like.mono hL test htest) (Expr.Like.mono hL yes hyes)
      (Expr.Like.mono hL no hno)
  | .var _ _, .var hn => exact .var (hL.occurrence hn)
  | .self _ _, .self hn => exact .self (hL.occurrence hn)
  | .assign _ _ value, .assign hn he =>
    exact .assign (hL.occurrence hn) (Expr.Like.mono hL value he)
  | .call callee _ arguments, .call hf hparen hes =>
    exact .call (Expr.Like.mono hL callee hf) (hL.token hparen) (likeExprs_mono hL arguments hes)
  | .lambda decl, .lambda hf => exact .lambda (FunctionDecl.Like.mono hL decl hf)
  | .array _ elements, .array hb hes => exact .array (hL.token hb) (likeExprs_mono hL elements hes)
  | .index _ base key, .index hb hbase hkey =>
    exact .index (hL.token hb) (Expr.Like.mono hL base hbase) (Expr.Like.mono hL key hkey)
  | .indexSet _ base key value, .indexSet hb hbase hkey he =>
    exact .indexSet (hL.token hb) (Expr.Like.mono hL base hbase) (Expr.Like.mono hL key hkey)
      (Expr.Like.mono hL value he)
  | .get object _, .get he hname => exact .get (Expr.Like.mono hL object he) (hL.token hname)
  | .set object _ value, .set hobject hname he =>
    exact .set (Expr.Like.mono hL object hobject) (hL.token hname) (Expr.Like.mono hL value he)
termination_by structural e

theorem likeExprs_mono (hL : L.Le L') (es : List Expr) {es' : List Expr} {bs : List Bool}
    (h : ExprsLike L bs es es') : ExprsLike L' bs es es' := by
  match es, h with
  | [], .nil => exact .nil
  | e :: es, .cons he hes => exact .cons (Expr.Like.mono hL e he) (likeExprs_mono hL es hes)
termination_by structural es

theorem Stmt.Like.mono (hL : L.Le L') (s : Stmt) {s' : Stmt} {bs : List Bool}
    (h : s.Like L bs s') : s.Like L' bs s' := by
  match s, h with
  | .expression e, .expression he => exact .expression (Expr.Like.mono hL e he)
  | .print e, .print he => exact .print (Expr.Like.mono hL e he)
  | .var _ none, .var hname => exact .var (hL.binder hname)
  | .var _ (some e), .varValue hname he =>
    exact .varValue (hL.binder hname) (Expr.Like.mono hL e he)
  | .block body, .block hss => exact .block (likeStmts_mono hL body hss)
  | .ifElse test yes none, .ifThen htest hyes =>
    exact .ifThen (Expr.Like.mono hL test htest) (Stmt.Like.mono hL yes hyes)
  | .ifElse test yes (some no), .ifElse htest hyes hno =>
    exact .ifElse (Expr.Like.mono hL test htest) (Stmt.Like.mono hL yes hyes)
      (Stmt.Like.mono hL no hno)
  | .loop test body none, .loop htest hbody =>
    exact .loop (Expr.Like.mono hL test htest) (Stmt.Like.mono hL body hbody)
  | .loop test body (some step), .loopStep htest hbody hstep =>
    exact .loopStep (Expr.Like.mono hL test htest) (Stmt.Like.mono hL body hbody)
      (Stmt.Like.mono hL step hstep)
  | .exitLoop _, .exitLoop hk => exact .exitLoop (hL.keyword hk)
  | .nextIteration _, .nextIteration hk => exact .nextIteration (hL.keyword hk)
  | .function decl, .function hname hf =>
    exact .function (fun hnone => hL.unnamed (hname hnone)) (FunctionDecl.Like.mono hL decl hf)
  | .result _ none, .result hk => exact .result (hL.keyword hk)
  | .result _ (some e), .resultValue hk he =>
    exact .resultValue (hL.keyword hk) (Expr.Like.mono hL e he)
  | .classDecl _ methods, .classDecl hname hfs =>
    exact .classDecl (hL.named hname) (likeFunctions_mono hL methods hfs)
termination_by structural s

theorem likeStmts_mono (hL : L.Le L') (ss : List Stmt) {ss' : List Stmt} {bs : List Bool}
    (h : StmtsLike L bs ss ss') : StmtsLike L' bs ss ss' := by
  match ss, h with
  | [], .nil => exact .nil
  | s :: ss, .cons hs hss => exact .cons (Stmt.Like.mono hL s hs) (likeStmts_mono hL ss hss)
termination_by structural ss

theorem FunctionDecl.Like.mono (hL : L.Le L') (f : FunctionDecl) {f' : FunctionDecl} {b : Bool}
    {bs : List Bool} (h : f.Like L b bs f') : f.Like L' b bs f' := by
  match f, h with
  | ⟨_, _, body⟩, .mk hname hparams hbody =>
    exact .mk (rel_imp (fun _ _ => hL.named) hname) (hparams.imp fun _ _ => hL.binder)
      (likeStmts_mono hL body hbody)
termination_by structural f

theorem likeFunctions_mono (hL : L.Le L') (fs : List FunctionDecl) {fs' : List FunctionDecl}
    {bs : List Bool} (h : FunctionsLike L bs fs fs') : FunctionsLike L' bs fs fs' := by
  match fs, h with
  | [], .nil => exact .nil
  | f :: fs, .cons hf hfs =>
    exact .cons (FunctionDecl.Like.mono hL f hf) (likeFunctions_mono hL fs hfs)
termination_by structural fs

end

end Mono

/-! ### Twins -/

/-- Twins may stand in each other's place, where no scope has a mark. -/
structure Likeness.Covers (L : Likeness) (ρ : Renumbering) : Prop where
  token : ∀ {t t'}, t.Twin ρ t' → L.token t t'
  keyword : ∀ {t t'}, t.Twin ρ t' → L.keyword t t'
  occurrence : ∀ {bs i i' n n'}, true ∉ bs → ρ.id i i' → n.Twin ρ n' → L.occurrence bs i n i' n'
  binder : ∀ {n n'}, n.Twin ρ n' → L.binder false n n'
  named : ∀ {n n'}, n.Twin ρ n' → L.named false n n'
  unnamed : L.unnamed false

/-- Only twins may stand in each other's place. -/
structure Likeness.CoveredBy (L : Likeness) (ρ : Renumbering) : Prop where
  token : ∀ {t t'}, L.token t t' → t.Twin ρ t'
  keyword : ∀ {t t'}, L.keyword t t' → t.Twin ρ t'
  occurrence : ∀ {bs i i' n n'}, L.occurrence bs i n i' n' → ρ.id i i' ∧ n.Twin ρ n'
  binder : ∀ {b n n'}, L.binder b n n' → n.Twin ρ n'
  named : ∀ {b n n'}, L.named b n n' → n.Twin ρ n'

theorem innermost_of_unmarked {bs : List Bool} (h : true ∉ bs) : innermost bs = false := by
  cases bs with
  | nil => rfl
  | cons b bs => exact Bool.eq_false_iff.mpr fun hb => h (hb ▸ List.mem_cons_self)

theorem unmarked_cons {bs : List Bool} (h : true ∉ bs) : true ∉ false :: bs := by
  simpa using h

section Twins

variable {ρ : Renumbering}

mutual

theorem Expr.Twin.like (hL : L.Covers ρ) (e : Expr) {e' : Expr} {bs : List Bool} (hbs : true ∉ bs)
    (h : e.Twin ρ e') : e.Like L bs e' := by
  match e, h with
  | .literal _, .literal => exact .literal
  | .unary _ operand, .unary ho he => exact .unary (hL.token ho) (Expr.Twin.like hL operand hbs he)
  | .group inner, .group he => exact .group (Expr.Twin.like hL inner hbs he)
  | .binary left _ right, .binary hl ho hr =>
    exact .binary (Expr.Twin.like hL left hbs hl) (hL.token ho) (Expr.Twin.like hL right hbs hr)
  | .logical left _ right, .logical hl ho hr =>
    exact .logical (Expr.Twin.like hL left hbs hl) (hL.keyword ho) (Expr.Twin.like hL right hbs hr)
  | .conditional test yes no, .conditional htest hyes hno =>
    exact .conditional (Expr.Twin.like hL test hbs htest) (Expr.Twin.like hL yes hbs hyes)
      (Expr.Twin.like hL no hbs hno)
  | .var _ _, .var hi hname => exact .var (hL.occurrence hbs hi hname)
  | .self _ _, .self hi hkeyword => exact .self (hL.occurrence hbs hi hkeyword)
  | .assign _ _ value, .assign hi hname he =>
    exact .assign (hL.occurrence hbs hi hname) (Expr.Twin.like hL value hbs he)
  | .call callee _ arguments, .call hf hparen hes =>
    exact .call (Expr.Twin.like hL callee hbs hf) (hL.token hparen)
      (likeExprs_of_twins hL arguments hbs hes)
  | .lambda decl, .lambda hf => exact .lambda (FunctionDecl.Twin.like hL decl hbs hf)
  | .array _ elements, .array hb hes =>
    exact .array (hL.token hb) (likeExprs_of_twins hL elements hbs hes)
  | .index _ base key, .index hb hbase hkey =>
    exact .index (hL.token hb) (Expr.Twin.like hL base hbs hbase) (Expr.Twin.like hL key hbs hkey)
  | .indexSet _ base key value, .indexSet hb hbase hkey he =>
    exact .indexSet (hL.token hb) (Expr.Twin.like hL base hbs hbase)
      (Expr.Twin.like hL key hbs hkey) (Expr.Twin.like hL value hbs he)
  | .get object _, .get he hname => exact .get (Expr.Twin.like hL object hbs he) (hL.token hname)
  | .set object _ value, .set hobject hname he =>
    exact .set (Expr.Twin.like hL object hbs hobject) (hL.token hname)
      (Expr.Twin.like hL value hbs he)
termination_by structural e

theorem likeExprs_of_twins (hL : L.Covers ρ) (es : List Expr) {es' : List Expr} {bs : List Bool}
    (hbs : true ∉ bs) (h : List.Forall₂ (Expr.Twin ρ) es es') : ExprsLike L bs es es' := by
  match es, h with
  | [], .nil => exact .nil
  | e :: es, .cons he hes =>
    exact .cons (Expr.Twin.like hL e hbs he) (likeExprs_of_twins hL es hbs hes)
termination_by structural es

theorem Stmt.Twin.like (hL : L.Covers ρ) (s : Stmt) {s' : Stmt} {bs : List Bool} (hbs : true ∉ bs)
    (h : s.Twin ρ s') : s.Like L bs s' := by
  have hmark := innermost_of_unmarked hbs
  have hinner := unmarked_cons hbs
  match s, h with
  | .expression e, .expression he => exact .expression (Expr.Twin.like hL e hbs he)
  | .print e, .print he => exact .print (Expr.Twin.like hL e hbs he)
  | .var _ none, .var hname .none => exact .var (by rw [hmark]; exact hL.binder hname)
  | .var _ (some e), .var hname (.some he) =>
    exact .varValue (by rw [hmark]; exact hL.binder hname) (Expr.Twin.like hL e hbs he)
  | .block body, .block hss => exact .block (likeStmts_of_twins hL body hinner hss)
  | .ifElse test yes none, .ifElse htest hyes .none =>
    exact .ifThen (Expr.Twin.like hL test hbs htest) (Stmt.Twin.like hL yes hbs hyes)
  | .ifElse test yes (some no), .ifElse htest hyes (.some hno) =>
    exact .ifElse (Expr.Twin.like hL test hbs htest) (Stmt.Twin.like hL yes hbs hyes)
      (Stmt.Twin.like hL no hbs hno)
  | .loop test body none, .loop htest hbody .none =>
    exact .loop (Expr.Twin.like hL test hbs htest) (Stmt.Twin.like hL body hbs hbody)
  | .loop test body (some step), .loop htest hbody (.some hstep) =>
    exact .loopStep (Expr.Twin.like hL test hbs htest) (Stmt.Twin.like hL body hbs hbody)
      (Stmt.Twin.like hL step hinner hstep)
  | .exitLoop _, .exitLoop hk => exact .exitLoop (hL.keyword hk)
  | .nextIteration _, .nextIteration hk => exact .nextIteration (hL.keyword hk)
  | .function decl, .function hf =>
    refine .function (fun _ => hmark ▸ hL.unnamed) ?_
    rw [hmark]
    exact FunctionDecl.Twin.like hL decl hbs hf
  | .result _ none, .result hk .none => exact .result (hL.keyword hk)
  | .result _ (some e), .result hk (.some he) =>
    exact .resultValue (hL.keyword hk) (Expr.Twin.like hL e hbs he)
  | .classDecl _ methods, .classDecl hname hfs =>
    exact .classDecl (by rw [hmark]; exact hL.named hname)
      (likeFunctions_of_twins hL methods hinner hfs)
termination_by structural s

theorem likeStmts_of_twins (hL : L.Covers ρ) (ss : List Stmt) {ss' : List Stmt} {bs : List Bool}
    (hbs : true ∉ bs) (h : List.Forall₂ (Stmt.Twin ρ) ss ss') : StmtsLike L bs ss ss' := by
  match ss, h with
  | [], .nil => exact .nil
  | s :: ss, .cons hs hss =>
    exact .cons (Stmt.Twin.like hL s hbs hs) (likeStmts_of_twins hL ss hbs hss)
termination_by structural ss

theorem FunctionDecl.Twin.like (hL : L.Covers ρ) (f : FunctionDecl) {f' : FunctionDecl}
    {bs : List Bool} (hbs : true ∉ bs) (h : f.Twin ρ f') : f.Like L false bs f' := by
  match f, h with
  | ⟨name?, params, body⟩, .mk hname hparams hbody =>
    exact .mk (rel_imp (fun _ _ => hL.named) hname) (hparams.imp fun _ _ => hL.binder)
      (likeStmts_of_twins hL body (unmarked_cons hbs) hbody)
termination_by structural f

theorem likeFunctions_of_twins (hL : L.Covers ρ) (fs : List FunctionDecl) {fs' : List FunctionDecl}
    {bs : List Bool} (hbs : true ∉ bs) (h : List.Forall₂ (FunctionDecl.Twin ρ) fs fs') :
    FunctionsLike L bs fs fs' := by
  match fs, h with
  | [], .nil => exact .nil
  | f :: fs, .cons hf hfs =>
    exact .cons (FunctionDecl.Twin.like hL f hbs hf) (likeFunctions_of_twins hL fs hbs hfs)
termination_by structural fs

end

mutual

theorem Expr.Like.twin (hL : L.CoveredBy ρ) (e : Expr) {e' : Expr} {bs : List Bool}
    (h : e.Like L bs e') : e.Twin ρ e' := by
  match e, h with
  | .literal _, .literal => exact .literal
  | .unary _ operand, .unary ho he => exact .unary (hL.token ho) (Expr.Like.twin hL operand he)
  | .group inner, .group he => exact .group (Expr.Like.twin hL inner he)
  | .binary left _ right, .binary hl ho hr =>
    exact .binary (Expr.Like.twin hL left hl) (hL.token ho) (Expr.Like.twin hL right hr)
  | .logical left _ right, .logical hl ho hr =>
    exact .logical (Expr.Like.twin hL left hl) (hL.keyword ho) (Expr.Like.twin hL right hr)
  | .conditional test yes no, .conditional htest hyes hno =>
    exact .conditional (Expr.Like.twin hL test htest) (Expr.Like.twin hL yes hyes)
      (Expr.Like.twin hL no hno)
  | .var _ _, .var hname => exact .var (hL.occurrence hname).1 (hL.occurrence hname).2
  | .self _ _, .self hkeyword => exact .self (hL.occurrence hkeyword).1 (hL.occurrence hkeyword).2
  | .assign _ _ value, .assign hname he =>
    exact .assign (hL.occurrence hname).1 (hL.occurrence hname).2 (Expr.Like.twin hL value he)
  | .call callee _ arguments, .call hf hparen hes =>
    exact .call (Expr.Like.twin hL callee hf) (hL.token hparen)
      (twins_of_likeExprs hL arguments hes)
  | .lambda decl, .lambda hf => exact .lambda (FunctionDecl.Like.twin hL decl hf)
  | .array _ elements, .array hb hes =>
    exact .array (hL.token hb) (twins_of_likeExprs hL elements hes)
  | .index _ base key, .index hb hbase hkey =>
    exact .index (hL.token hb) (Expr.Like.twin hL base hbase) (Expr.Like.twin hL key hkey)
  | .indexSet _ base key value, .indexSet hb hbase hkey he =>
    exact .indexSet (hL.token hb) (Expr.Like.twin hL base hbase) (Expr.Like.twin hL key hkey)
      (Expr.Like.twin hL value he)
  | .get object _, .get he hname => exact .get (Expr.Like.twin hL object he) (hL.token hname)
  | .set object _ value, .set hobject hname he =>
    exact .set (Expr.Like.twin hL object hobject) (hL.token hname) (Expr.Like.twin hL value he)
termination_by structural e

theorem twins_of_likeExprs (hL : L.CoveredBy ρ) (es : List Expr) {es' : List Expr} {bs : List Bool}
    (h : ExprsLike L bs es es') : List.Forall₂ (Expr.Twin ρ) es es' := by
  match es, h with
  | [], .nil => exact .nil
  | e :: es, .cons he hes => exact .cons (Expr.Like.twin hL e he) (twins_of_likeExprs hL es hes)
termination_by structural es

theorem Stmt.Like.twin (hL : L.CoveredBy ρ) (s : Stmt) {s' : Stmt} {bs : List Bool}
    (h : s.Like L bs s') : s.Twin ρ s' := by
  match s, h with
  | .expression e, .expression he => exact .expression (Expr.Like.twin hL e he)
  | .print e, .print he => exact .print (Expr.Like.twin hL e he)
  | .var _ none, .var hname => exact .var (hL.binder hname) .none
  | .var _ (some e), .varValue hname he =>
    exact .var (hL.binder hname) (.some (Expr.Like.twin hL e he))
  | .block body, .block hss => exact .block (twins_of_likeStmts hL body hss)
  | .ifElse test yes none, .ifThen htest hyes =>
    exact .ifElse (Expr.Like.twin hL test htest) (Stmt.Like.twin hL yes hyes) .none
  | .ifElse test yes (some no), .ifElse htest hyes hno =>
    exact .ifElse (Expr.Like.twin hL test htest) (Stmt.Like.twin hL yes hyes)
      (.some (Stmt.Like.twin hL no hno))
  | .loop test body none, .loop htest hbody =>
    exact .loop (Expr.Like.twin hL test htest) (Stmt.Like.twin hL body hbody) .none
  | .loop test body (some step), .loopStep htest hbody hstep =>
    exact .loop (Expr.Like.twin hL test htest) (Stmt.Like.twin hL body hbody)
      (.some (Stmt.Like.twin hL step hstep))
  | .exitLoop _, .exitLoop hk => exact .exitLoop (hL.keyword hk)
  | .nextIteration _, .nextIteration hk => exact .nextIteration (hL.keyword hk)
  | .function decl, .function _ hf => exact .function (FunctionDecl.Like.twin hL decl hf)
  | .result _ none, .result hk => exact .result (hL.keyword hk) .none
  | .result _ (some e), .resultValue hk he =>
    exact .result (hL.keyword hk) (.some (Expr.Like.twin hL e he))
  | .classDecl _ methods, .classDecl hname hfs =>
    exact .classDecl (hL.named hname) (twins_of_likeFunctions hL methods hfs)
termination_by structural s

theorem twins_of_likeStmts (hL : L.CoveredBy ρ) (ss : List Stmt) {ss' : List Stmt} {bs : List Bool}
    (h : StmtsLike L bs ss ss') : List.Forall₂ (Stmt.Twin ρ) ss ss' := by
  match ss, h with
  | [], .nil => exact .nil
  | s :: ss, .cons hs hss => exact .cons (Stmt.Like.twin hL s hs) (twins_of_likeStmts hL ss hss)
termination_by structural ss

theorem FunctionDecl.Like.twin (hL : L.CoveredBy ρ) (f : FunctionDecl) {f' : FunctionDecl}
    {b : Bool} {bs : List Bool} (h : f.Like L b bs f') : f.Twin ρ f' := by
  match f, h with
  | ⟨_, _, body⟩, .mk hname hparams hbody =>
    exact .mk (rel_imp (fun _ _ => hL.named) hname) (hparams.imp fun _ _ => hL.binder)
      (twins_of_likeStmts hL body hbody)
termination_by structural f

theorem twins_of_likeFunctions (hL : L.CoveredBy ρ) (fs : List FunctionDecl)
    {fs' : List FunctionDecl} {bs : List Bool} (h : FunctionsLike L bs fs fs') :
    List.Forall₂ (FunctionDecl.Twin ρ) fs fs' := by
  match fs, h with
  | [], .nil => exact .nil
  | f :: fs, .cons hf hfs =>
    exact .cons (FunctionDecl.Like.twin hL f hf) (twins_of_likeFunctions hL fs hfs)
termination_by structural fs

end

/-- All numbers and lines are the same. -/
def Renumbering.same : Renumbering where
  line l l' := l' = l
  id i i' := i' = i
  id_iff := @Renumbering.id_iff_of_eq

/-- The likeness of twins. -/
def Renumbering.likeness (ρ : Renumbering) : Likeness where
  token := Token.Twin ρ
  keyword := Token.Twin ρ
  occurrence _ i n i' n' := ρ.id i i' ∧ n.Twin ρ n'
  binder _ := Token.Twin ρ
  named _ := Token.Twin ρ
  unnamed _ := True

theorem Renumbering.covers (ρ : Renumbering) : ρ.likeness.Covers ρ :=
  ⟨fun h => h, fun h => h, fun _ hi hn => ⟨hi, hn⟩, fun h => h, fun h => h, trivial⟩

theorem Renumbering.coveredBy (ρ : Renumbering) : ρ.likeness.CoveredBy ρ :=
  ⟨fun h => h, fun h => h, fun h => h, fun h => h, fun h => h⟩

end Twins

end Roteiro
