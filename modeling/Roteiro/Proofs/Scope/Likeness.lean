import Roteiro.Proofs.Scope.Placed
import Roteiro.Proofs.Tree.Likeness

/-!
# The scopes of trees of one shape

The analysis of scopes looks at the spellings of names, at the numbers of occurrences only to record
depths under them, and at other tokens only to blame a complaint on them. So it comes to the same
depths and to the same complaints for two trees of one shape that have the same names: the depths
are recorded under the numbers that correspond, and the complaints are about tokens that correspond.

* `Likeness.Resolves`: what the analysis sees is the same.
* `resolve_like`: trees of one shape are analysed in the same way.
-/

namespace Roteiro

open Scope

/-- Two tables have the same depths under the numbers that correspond. -/
def Depths.Twin (ρ : Renumbering) (T T' : Depths) : Prop :=
  ∀ {i i'}, ρ.id i i' → T'[i']? = T[i]?

/-- Names are spelled the same, numbers correspond by `ρ`, and tokens that are complained about by
`R`. -/
structure Likeness.Resolves (L : Likeness) (ρ : Renumbering) (R : Token → Token → Prop) : Prop where
  id : ∀ {bs i n i' n'}, L.occurrence bs i n i' n' → ρ.id i i'
  occurrence : ∀ {bs i n i' n'}, L.occurrence bs i n i' n' → n'.lexeme = n.lexeme ∧ R n n'
  binder : ∀ {b n n'}, L.binder b n n' → n'.lexeme = n.lexeme ∧ R n n'
  named : ∀ {b n n'}, L.named b n n' → n'.lexeme = n.lexeme ∧ R n n'
  keyword : ∀ {t t'}, L.keyword t t' → R t t'

namespace Scope

variable {ρ : Renumbering} {R : Token → Token → Prop}

/-- Two analyses have come equally far in trees of one shape. -/
structure Analysis.Like (ρ : Renumbering) (R : Token → Token → Prop) (a a' : Analysis) : Prop where
  scopes : a'.scopes = a.scopes
  body : a'.body = a.body
  inClass : a'.inClass = a.inClass
  loops : a'.loops = a.loops
  depths : Depths.Twin ρ a.depths a'.depths
  reports : List.Forall₂ (Report.Like R) a.reports.toList a'.reports.toList

namespace Analysis.Like

variable {a a' : Analysis} (h : a.Like ρ R a')

include h

theorem complain {t t' : Token} (ht : R t t') (cause : Cause) :
    (a.complain t cause).Like ρ R (a'.complain t' cause) := by
  refine ⟨h.scopes, h.body, h.inClass, h.loops, h.depths, ?_⟩
  simp only [Analysis.complain, Array.toList_push]
  exact List.rel_append h.reports (.cons (.resolve ht cause) .nil)

theorem openScope (scope : Bindings Stage) : (a.openScope scope).Like ρ R (a'.openScope scope) :=
  ⟨congrArg (scope :: ·) h.scopes, h.body, h.inClass, h.loops, h.depths, h.reports⟩

theorem closeScope : a.closeScope.Like ρ R a'.closeScope :=
  ⟨congrArg List.tail h.scopes, h.body, h.inClass, h.loops, h.depths, h.reports⟩

section Names

variable {n n' : Token} (hn : n'.lexeme = n.lexeme ∧ R n n')

include hn

theorem declare : (a.declare n).Like ρ R (a'.declare n') := by
  have hcomplained := h.complain hn.2 .alreadyDeclared
  unfold Analysis.declare
  rw [h.scopes, hn.1]
  split
  · exact h
  · split
    · exact hcomplained
    · exact ⟨rfl, h.body, h.inClass, h.loops, h.depths, h.reports⟩

theorem define : (a.define n).Like ρ R (a'.define n') := by
  unfold Analysis.define
  rw [h.scopes, hn.1]
  split
  · exact h
  · exact ⟨rfl, h.body, h.inClass, h.loops, h.depths, h.reports⟩

theorem introduce : (a.introduce n).Like ρ R (a'.introduce n') := (h.declare hn).define hn

end Names

theorem introduceAll {ns ns' : List Token}
    (hns : List.Forall₂ (fun n n' => n'.lexeme = n.lexeme ∧ R n n') ns ns') :
    (ns.foldl Analysis.introduce a).Like ρ R (ns'.foldl Analysis.introduce a') := by
  induction hns generalizing a a' with
  | nil => exact h
  | cons hn _ ih => exact ih (h.introduce hn)

/-- A depth is recorded under numbers that correspond, and under no others. -/
theorem record {i i' : Nat} (hi : ρ.id i i') (name : String) :
    (a.record i name).Like ρ R (a'.record i' name) := by
  have hdepth : a'.depth? name = a.depth? name := by
    rw [Analysis.depth?, Analysis.depth?, h.scopes]
  unfold Analysis.record
  rw [hdepth]
  split
  · refine ⟨h.scopes, h.body, h.inClass, h.loops, fun {j j'} hj => ?_, h.reports⟩
    simp only [Std.TreeMap.getElem?_insert, Nat.compare_eq_eq, ρ.id_iff hi hj, h.depths hj]
  · exact h

theorem requireLoop {t t' : Token} (ht : R t t') (cause : Cause) :
    (a.requireLoop t cause).Like ρ R (a'.requireLoop t' cause) := by
  unfold Analysis.requireLoop
  rw [h.loops]
  split
  · exact h.complain ht cause
  · exact h

theorem enterLoop : a.enterLoop.Like ρ R a'.enterLoop :=
  ⟨h.scopes, h.body, h.inClass, congrArg (· + 1) h.loops, h.depths, h.reports⟩

theorem leaveLoop : a.leaveLoop.Like ρ R a'.leaveLoop :=
  ⟨h.scopes, h.body, h.inClass, congrArg (· - 1) h.loops, h.depths, h.reports⟩

theorem enterFunction (body : Body) : (a.enterFunction body).Like ρ R (a'.enterFunction body) :=
  ⟨congrArg ([] :: ·) h.scopes, rfl, h.inClass, rfl, h.depths, h.reports⟩

theorem leaveFunction {outer outer' : Analysis} (houter : outer.Like ρ R outer') :
    (a.leaveFunction outer).Like ρ R (a'.leaveFunction outer') :=
  ⟨congrArg List.tail h.scopes, houter.body, h.inClass, houter.loops, h.depths, h.reports⟩

/-- A complaint that depends on the body around. -/
theorem complainIn (body : Body) {t t' : Token} (ht : R t t') (cause : Cause) :
    Analysis.Like ρ R (if a.body = body then a.complain t cause else a)
      (if a'.body = body then a'.complain t' cause else a') := by
  rw [h.body]
  split
  · exact h.complain ht cause
  · exact h

theorem read {i i' : Nat} (hi : ρ.id i i') {n n' : Token} (hn : n'.lexeme = n.lexeme ∧ R n n') :
    Analysis.Like ρ R (resolveExpr (.var i n) a) (resolveExpr (.var i' n') a') := by
  have hpending : a'.inOwnInitializer n'.lexeme = a.inOwnInitializer n.lexeme := by
    rw [Analysis.inOwnInitializer, Analysis.inOwnInitializer, h.scopes, hn.1]
  unfold resolveExpr
  rw [hpending, hn.1]
  split
  · exact (h.complain hn.2 _).record hi _
  · exact h.record hi _

theorem self {i i' : Nat} (hi : ρ.id i i') {keyword keyword' : Token}
    (hkeyword : R keyword keyword') :
    Analysis.Like ρ R (resolveExpr (.self i keyword) a) (resolveExpr (.self i' keyword') a') := by
  unfold resolveExpr
  rw [h.inClass]
  split
  · exact h.record hi _
  · exact h.complain hkeyword _

end Analysis.Like

variable {L : Likeness}

theorem methodBody_like (hL : L.Resolves ρ R) {b : Bool} {bs : List Bool} {f f' : FunctionDecl}
    (h : f.Like L b bs f') : methodBody f' = methodBody f := by
  rw [methodBody, methodBody, h.displayName fun hname => (hL.named hname).1]

mutual

theorem resolveExpr_like (hL : L.Resolves ρ R) (e : Expr) {e' : Expr} {bs : List Bool}
    (h : e.Like L bs e') {a a' : Analysis} (ha : a.Like ρ R a') :
    (resolveExpr e a).Like ρ R (resolveExpr e' a') := by
  match e, h with
  | .literal _, .literal => exact ha
  | .unary _ operand, .unary _ he => exact resolveExpr_like hL operand he ha
  | .group inner, .group he => exact resolveExpr_like hL inner he ha
  | .binary left _ right, .binary hl _ hr =>
    exact resolveExpr_like hL right hr (resolveExpr_like hL left hl ha)
  | .logical left _ right, .logical hl _ hr =>
    exact resolveExpr_like hL right hr (resolveExpr_like hL left hl ha)
  | .conditional test yes no, .conditional htest hyes hno =>
    exact resolveExpr_like hL no hno
      (resolveExpr_like hL yes hyes (resolveExpr_like hL test htest ha))
  | .var _ _, .var hn => exact ha.read (hL.id hn) (hL.occurrence hn)
  | .self _ _, .self hn => exact ha.self (hL.id hn) (hL.occurrence hn).2
  | .assign _ name value, .assign hn he =>
    have hvalue := resolveExpr_like hL value he ha
    unfold resolveExpr
    rw [(hL.occurrence hn).1]
    exact hvalue.record (hL.id hn) name.lexeme
  | .call callee _ arguments, .call hf _ hes =>
    exact resolveExprs_like hL arguments hes (resolveExpr_like hL callee hf ha)
  | .lambda decl, .lambda hf => exact resolveFunction_like hL decl hf .function ha
  | .array _ elements, .array _ hes => exact resolveExprs_like hL elements hes ha
  | .index _ base key, .index _ hbase hkey =>
    exact resolveExpr_like hL key hkey (resolveExpr_like hL base hbase ha)
  | .indexSet _ base key value, .indexSet _ hbase hkey he =>
    exact resolveExpr_like hL value he
      (resolveExpr_like hL key hkey (resolveExpr_like hL base hbase ha))
  | .get object _, .get he _ => exact resolveExpr_like hL object he ha
  | .set object _ value, .set hobject _ he =>
    exact resolveExpr_like hL value he (resolveExpr_like hL object hobject ha)
termination_by structural e

theorem resolveExprs_like (hL : L.Resolves ρ R) (es : List Expr) {es' : List Expr} {bs : List Bool}
    (h : ExprsLike L bs es es') {a a' : Analysis} (ha : a.Like ρ R a') :
    (resolveExprs es a).Like ρ R (resolveExprs es' a') := by
  match es, h with
  | [], .nil => exact ha
  | e :: es, .cons he hes => exact resolveExprs_like hL es hes (resolveExpr_like hL e he ha)
termination_by structural es

theorem resolveStmt_like (hL : L.Resolves ρ R) (s : Stmt) {s' : Stmt} {bs : List Bool}
    (h : s.Like L bs s') {a a' : Analysis} (ha : a.Like ρ R a') :
    (resolveStmt s a).Like ρ R (resolveStmt s' a') := by
  match s, h with
  | .expression e, .expression he => exact resolveExpr_like hL e he ha
  | .print e, .print he => exact resolveExpr_like hL e he ha
  | .var _ none, .var hname => exact ha.introduce (hL.binder hname)
  | .var _ (some e), .varValue hname he =>
    exact (resolveExpr_like hL e he (ha.declare (hL.binder hname))).define (hL.binder hname)
  | .block body, .block hss => exact (resolveStmts_like hL body hss (ha.openScope [])).closeScope
  | .ifElse test yes none, .ifThen htest hyes =>
    exact resolveStmt_like hL yes hyes (resolveExpr_like hL test htest ha)
  | .ifElse test yes (some no), .ifElse htest hyes hno =>
    exact resolveStmt_like hL no hno
      (resolveStmt_like hL yes hyes (resolveExpr_like hL test htest ha))
  | .loop test body none, .loop htest hbody =>
    exact (resolveStmt_like hL body hbody (resolveExpr_like hL test htest ha).enterLoop).leaveLoop
  | .loop test body (some step), .loopStep htest hbody hstep =>
    have hinside := (resolveExpr_like hL test htest ha).enterLoop
    have hloop := (resolveStmt_like hL body hbody hinside).leaveLoop
    exact (resolveStmt_like hL step hstep (hloop.openScope [])).closeScope
  | .exitLoop _, .exitLoop hk => exact ha.requireLoop (hL.keyword hk) _
  | .nextIteration _, .nextIteration hk => exact ha.requireLoop (hL.keyword hk) _
  | .function decl, .function _ hf =>
    unfold resolveStmt
    refine resolveFunction_like hL decl hf .function ?_
    cases hf with
    | mk hname _ _ =>
      cases hname with
      | none => exact ha
      | some hname => exact ha.introduce (hL.named hname)
  | .result _ none, .result hk => exact ha.complainIn .program (hL.keyword hk) _
  | .result _ (some e), .resultValue hk he =>
    exact resolveExpr_like hL e he
      ((ha.complainIn .program (hL.keyword hk) _).complainIn .initializer (hL.keyword hk) _)
  | .classDecl _ methods, .classDecl hname hfs =>
    have hinside : Analysis.Like ρ R { a with inClass := true } { a' with inClass := true } :=
      ⟨ha.scopes, ha.body, rfl, ha.loops, ha.depths, ha.reports⟩
    have hmethods := (resolveMethods_like hL methods hfs
      ((hinside.introduce (hL.named hname)).openScope [(selfName, .defined)])).closeScope
    exact ⟨hmethods.scopes, hmethods.body, ha.inClass, hmethods.loops, hmethods.depths,
      hmethods.reports⟩
termination_by structural s

theorem resolveStmts_like (hL : L.Resolves ρ R) (ss : List Stmt) {ss' : List Stmt} {bs : List Bool}
    (h : StmtsLike L bs ss ss') {a a' : Analysis} (ha : a.Like ρ R a') :
    (resolveStmts ss a).Like ρ R (resolveStmts ss' a') := by
  match ss, h with
  | [], .nil => exact ha
  | s :: ss, .cons hs hss => exact resolveStmts_like hL ss hss (resolveStmt_like hL s hs ha)
termination_by structural ss

theorem resolveFunction_like (hL : L.Resolves ρ R) (f : FunctionDecl) {f' : FunctionDecl} {b : Bool}
    {bs : List Bool} (h : f.Like L b bs f') (body : Body) {a a' : Analysis} (ha : a.Like ρ R a') :
    (resolveFunction f body a).Like ρ R (resolveFunction f' body a') := by
  match f, h with
  | ⟨_, _, ss⟩, .mk _ hparams hbody =>
    have hinside := (ha.enterFunction body).introduceAll (hparams.imp fun _ _ => hL.binder)
    exact (resolveStmts_like hL ss hbody hinside).leaveFunction ha
termination_by structural f

theorem resolveMethods_like (hL : L.Resolves ρ R) (fs : List FunctionDecl)
    {fs' : List FunctionDecl} {bs : List Bool} (h : FunctionsLike L bs fs fs') {a a' : Analysis}
    (ha : a.Like ρ R a') :
    (resolveMethods fs a).Like ρ R (resolveMethods fs' a') := by
  match fs, h with
  | [], .nil => exact ha
  | f :: fs, .cons hf hfs =>
    have hfirst := resolveFunction_like hL f hf (methodBody f) ha
    unfold resolveMethods
    rw [methodBody_like hL hf]
    exact resolveMethods_like hL fs hfs hfirst
termination_by structural fs

end

/-- **Trees of one shape with the same names are analysed in the same way.** -/
theorem resolve_like (hL : L.Resolves ρ R) {program program' : List Stmt} {bs : List Bool}
    (h : StmtsLike L bs program program') {T T' : Depths} (hT : T.Twin ρ T') :
    (resolve program T).Like ρ R (resolve program' T') :=
  resolveStmts_like hL program h ⟨rfl, rfl, rfl, rfl, hT, .nil⟩

end Scope

end Roteiro
