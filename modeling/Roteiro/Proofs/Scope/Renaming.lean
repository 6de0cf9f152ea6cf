import Roteiro.Proofs.Scope.Placed
import Roteiro.Proofs.Tree.Renaming

/-!
# The scopes of renamed programs

A program whose local names are exchanged in some scopes is analysed in the same way, if the second
name does not occur in it. At each place the two analyses have the same scopes, with the names
exchanged in those that have a mark. An occurrence is renamed by the mark of the scope that it
means. Its name is found in that scope again; and it is found in no scope further in, since neither
of the two names is declared there if it was not found there before: the second one does not occur.

* `findIdx?_respelled`: a name is found at the same depth after the renaming.
* `resolve_renamed`: the same depths are recorded, and there are as many complaints.
-/

namespace Roteiro

open Scope Analysis

variable {R : Renaming} {T : Depths}

/-- The same scopes, with names exchanged in those that have a mark. The new name is in none of them
before. Behind the marks of the scopes stands that of the globals. -/
inductive Renaming.Respelled (R : Renaming) :
    List Bool → List (Bindings Stage) → List (Bindings Stage) → Prop
  | globals : Respelled R [false] [] []
  | scope {mark : Bool} {marks : List Bool} {x : Bindings Stage} {xs ys : List (Bindings Stage)}
      (hx : x.binds R.new = false) (h : Respelled R marks xs ys) :
    Respelled R (mark :: marks) (x :: xs) (R.respell mark x :: ys)

namespace Renaming

/-! ### Names in renamed scopes -/

theorem spell_spell (mark : Bool) (name : String) :
    R.spell mark (R.spell mark name) = name := by
  cases mark with
  | false => rfl
  | true => exact Equiv.swap_apply_self R.old R.new name

/-- A name that is not declared in a scope is not declared there under another mark either. -/
theorem binds_respell_of_not {x : Bindings Stage} (hnew : x.binds R.new = false) {name : String}
    (hname : name ≠ R.new) (hx : x.binds name = false) (mark mark' : Bool) :
    (R.respell mark x).binds (R.spell mark' name) = false := by
  rw [← R.spell_spell mark (R.spell mark' name), binds_respell]
  rcases R.spell_cases hname mark' with hsame | ⟨-, rfl, hother⟩
  · rw [hsame]
    rcases R.spell_cases hname mark with hsame | ⟨-, -, hother⟩
    · rwa [hsame]
    · rwa [hother]
  · rw [hother]
    cases mark with
    | false => exact hnew
    | true => rwa [← R.spell_old, spell_spell]

theorem Respelled.ne_nil {marks : List Bool} {xs ys : List (Bindings Stage)}
    (h : R.Respelled marks xs ys) : marks ≠ [] := by
  cases h <;> exact List.cons_ne_nil _ _

theorem markAt_succ {marks : List Bool} (h : marks ≠ []) (mark : Bool) (d : Nat) :
    markAt (mark :: marks) (d + 1) = markAt marks d := by
  cases marks with
  | nil => exact absurd rfl h
  | cons _ _ => rfl

/-- A name is found at the same depth after the renaming, if it is renamed by the mark of the scope
that it is found in. -/
theorem findIdx?_respelled {marks : List Bool} {xs ys : List (Bindings Stage)}
    (h : R.Respelled marks xs ys) {name : String} (hname : name ≠ R.new) {mark : Bool}
    (hmark : ∀ d, xs.findIdx? (fun x => x.binds name) = some d → markAt marks d = mark) :
    ys.findIdx? (fun y => y.binds (R.spell mark name)) = xs.findIdx? fun x => x.binds name := by
  induction h with
  | globals => rfl
  | @scope m marks x xs ys hx h ih =>
    rw [List.findIdx?_cons, List.findIdx?_cons]
    rw [List.findIdx?_cons] at hmark
    cases hbound : x.binds name with
    | true =>
      have hm : m = mark := hmark 0 (by rw [hbound]; rfl)
      rw [← hm, binds_respell, hbound]
      rfl
    | false =>
      rw [binds_respell_of_not hx hname hbound]
      have hrest := ih fun d hd => by
        rw [← markAt_succ h.ne_nil m d]
        exact hmark (d + 1) (by simp [hbound, hd])
      simp only [Bool.false_eq_true, if_false, hrest]

end Renaming

namespace Scope

open Renaming

/-- Two analyses have come equally far, one of them in a renamed program. -/
structure Analysis.Renamed (R : Renaming) (marks : List Bool) (a a' : Analysis) : Prop where
  scopes : R.Respelled marks a.scopes a'.scopes
  body : a'.body = a.body
  inClass : a'.inClass = a.inClass
  loops : a'.loops = a.loops
  depths : a'.depths = a.depths
  reports : a'.reports.size = a.reports.size

namespace Analysis.Renamed

variable {marks : List Bool} {a a' : Analysis} (h : a.Renamed R marks a')

include h

theorem complain (t t' : Token) (cause : Cause) :
    (a.complain t cause).Renamed R marks (a'.complain t' cause) := by
  refine ⟨h.scopes, h.body, h.inClass, h.loops, h.depths, ?_⟩
  simp only [Analysis.complain, Array.size_push, h.reports]

theorem openScope (mark : Bool) {x : Bindings Stage} (hx : x.binds R.new = false) :
    (a.openScope x).Renamed R (mark :: marks) (a'.openScope (R.respell mark x)) :=
  ⟨.scope hx h.scopes, h.body, h.inClass, h.loops, h.depths, h.reports⟩

theorem closeScope {mark : Bool} {b b' : Analysis} (hb : b.Renamed R (mark :: marks) b') :
    b.closeScope.Renamed R marks b'.closeScope := by
  refine ⟨?_, hb.body, hb.inClass, hb.loops, hb.depths, hb.reports⟩
  have hscopes := hb.scopes
  unfold Analysis.closeScope
  dsimp only
  generalize b.scopes = xs at hscopes ⊢
  generalize b'.scopes = ys at hscopes ⊢
  have hne := h.scopes.ne_nil
  cases hscopes with
  | globals => exact absurd rfl hne
  | scope _ hrest => exact hrest

/-- A name is declared, and under the mark of its scope in the renamed program. -/
theorem declare {n : Token} (hn : n.lexeme ≠ R.new) :
    (a.declare n).Renamed R marks (a'.declare (R.spelled (innermost marks) n)) := by
  have hcomplained := h.complain n (R.spelled (innermost marks) n) .alreadyDeclared
  obtain ⟨scopes, body, inClass, loops, depths, reports⟩ := a
  obtain ⟨scopes', body', inClass', loops', depths', reports'⟩ := a'
  obtain ⟨hscopes, hbody, hclass, hloops, hdepths, hreports⟩ := h
  dsimp only at hscopes
  unfold Analysis.declare
  cases hscopes with
  | globals => exact ⟨.globals, hbody, hclass, hloops, hdepths, hreports⟩
  | @scope mark marks x _ _ hx hs =>
    let n' := R.spelled (innermost (mark :: marks)) n
    have hbinds : (R.respell mark x).binds n'.lexeme = x.binds n.lexeme :=
      R.binds_respell mark x n.lexeme
    have hinsert : (R.respell mark x).insert n'.lexeme .declared =
        R.respell mark (x.insert n.lexeme .declared) := R.insert_respell mark x n.lexeme _
    have hx' := (binds_insert_of_ne x hn Stage.declared).trans hx
    dsimp only
    rw [hbinds, hinsert]
    split
    · exact hcomplained
    · exact ⟨.scope hx' hs, hbody, hclass, hloops, hdepths, hreports⟩

theorem define {n : Token} (hn : n.lexeme ≠ R.new) :
    (a.define n).Renamed R marks (a'.define (R.spelled (innermost marks) n)) := by
  obtain ⟨scopes, body, inClass, loops, depths, reports⟩ := a
  obtain ⟨scopes', body', inClass', loops', depths', reports'⟩ := a'
  obtain ⟨hscopes, hbody, hclass, hloops, hdepths, hreports⟩ := h
  dsimp only at hscopes
  unfold Analysis.define
  cases hscopes with
  | globals => exact ⟨.globals, hbody, hclass, hloops, hdepths, hreports⟩
  | @scope mark marks x _ _ hx hs =>
    let n' := R.spelled (innermost (mark :: marks)) n
    have hinsert : (R.respell mark x).insert n'.lexeme .defined =
        R.respell mark (x.insert n.lexeme .defined) := R.insert_respell mark x n.lexeme _
    have hx' := (binds_insert_of_ne x hn Stage.defined).trans hx
    dsimp only
    rw [hinsert]
    exact ⟨.scope hx' hs, hbody, hclass, hloops, hdepths, hreports⟩

theorem introduce {n : Token} (hn : n.lexeme ≠ R.new) :
    (a.introduce n).Renamed R marks (a'.introduce (R.spelled (innermost marks) n)) :=
  (h.declare hn).define hn

theorem introduceAll {ns ns' : List Token}
    (hns : List.Forall₂ (fun n n' => n' = R.spelled (innermost marks) n ∧ n.lexeme ≠ R.new)
      ns ns') :
    (ns.foldl Analysis.introduce a).Renamed R marks (ns'.foldl Analysis.introduce a') := by
  induction hns generalizing a a' with
  | nil => exact h
  | cons hn _ ih =>
    obtain ⟨rfl, hne⟩ := hn
    exact ih (h.introduce hne)

/-- A function or class is not renamed. -/
theorem introduceNamed {n n' : Token} (hn : (R.freshLikeness T).named (innermost marks) n n') :
    (a.introduce n).Renamed R marks (a'.introduce n') := by
  obtain ⟨rfl, hnew, hold⟩ := hn
  have hspelled : R.spelled (innermost marks) n' = n' := by
    cases hmark : innermost marks with
    | false => rfl
    | true => rw [spelled, R.spell_of_ne (hold hmark) hnew]
  have hintroduced := h.introduce hnew
  rwa [hspelled] at hintroduced

theorem requireLoop (t t' : Token) (cause : Cause) :
    (a.requireLoop t cause).Renamed R marks (a'.requireLoop t' cause) := by
  unfold Analysis.requireLoop
  rw [h.loops]
  split
  · exact h.complain t t' cause
  · exact h

theorem enterLoop : a.enterLoop.Renamed R marks a'.enterLoop :=
  ⟨h.scopes, h.body, h.inClass, congrArg (· + 1) h.loops, h.depths, h.reports⟩

theorem leaveLoop : a.leaveLoop.Renamed R marks a'.leaveLoop :=
  ⟨h.scopes, h.body, h.inClass, congrArg (· - 1) h.loops, h.depths, h.reports⟩

theorem enterFunction (body : Body) (mark : Bool) :
    (a.enterFunction body).Renamed R (mark :: marks) (a'.enterFunction body) :=
  ⟨.scope rfl h.scopes, rfl, h.inClass, rfl, h.depths, h.reports⟩

theorem leaveFunction {mark : Bool} {b b' : Analysis} (hb : b.Renamed R (mark :: marks) b') :
    (b.leaveFunction a).Renamed R marks (b'.leaveFunction a') := by
  have hclosed := h.closeScope hb
  exact ⟨hclosed.scopes, h.body, hclosed.inClass, h.loops, hclosed.depths, hclosed.reports⟩

/-- A complaint that depends on the body around. -/
theorem complainIn (body : Body) (t t' : Token) (cause : Cause) :
    Analysis.Renamed R marks (if a.body = body then a.complain t cause else a)
      (if a'.body = body then a'.complain t' cause else a') := by
  rw [h.body]
  split
  · exact h.complain t t' cause
  · exact h

section Occurrences

variable {i : Nat} {name : String} (hname : name ≠ R.new) (hdepth : T[i]? = a.depth? name)

include hname hdepth

/-- An occurrence is found in the same scope under the mark of the scope that it means. -/
theorem depth?_spell : a'.depth? (R.spell (markOf T marks i) name) = a.depth? name := by
  refine findIdx?_respelled h.scopes hname fun d hd => ?_
  have hT : T[i]? = some d := hdepth.trans hd
  rw [markOf, hT]

theorem record :
    (a.record i name).Renamed R marks (a'.record i (R.spell (markOf T marks i) name)) := by
  unfold Analysis.record
  rw [h.depth?_spell hname hdepth]
  split
  · exact ⟨h.scopes, h.body, h.inClass, h.loops, by rw [h.depths], h.reports⟩
  · exact h

/-- If the innermost scope has not declared a name, then it does not under another mark either. -/
theorem inOwnInitializer_spell :
    a'.inOwnInitializer (R.spell (markOf T marks i) name) = a.inOwnInitializer name := by
  unfold Analysis.inOwnInitializer
  unfold Analysis.depth? at hdepth
  have hscopes := h.scopes
  generalize a.scopes = xs at hscopes hdepth ⊢
  generalize a'.scopes = ys at hscopes ⊢
  cases hscopes with
  | globals => rfl
  | @scope mark marks x xs ys hx hs =>
    rw [List.head?_cons, List.head?_cons, Option.any_some, Option.any_some]
    cases hbound : x.binds name with
    | true =>
      have hmark : markOf T (mark :: marks) i = mark := by
        rw [markOf, hdepth, List.findIdx?_cons, hbound]
        rfl
      rw [hmark, find?_respell]
    | false =>
      have hbound' := binds_respell_of_not hx hname hbound mark (markOf T (mark :: marks) i)
      simp only [Bindings.binds, Option.isSome_eq_false_iff, Option.isNone_iff_eq_none]
        at hbound hbound'
      rw [hbound, hbound']

theorem read (n : Token) (hn : n.lexeme = name) :
    Analysis.Renamed R marks (resolveExpr (.var i n) a)
      (resolveExpr (.var i (R.spelled (markOf T marks i) n)) a') := by
  subst hn
  have hpending : a'.inOwnInitializer (R.spelled (markOf T marks i) n).lexeme =
      a.inOwnInitializer n.lexeme := h.inOwnInitializer_spell hname hdepth
  unfold resolveExpr
  dsimp only
  rw [hpending]
  split
  · exact (h.complain n _ _).record hname hdepth
  · exact h.record hname hdepth

end Occurrences

end Analysis.Renamed

/-! ### Programs -/

/-- The table has the depths of a tree in its place. -/
abbrev HasDepths (T : Depths) (i : Nat) (Γ : List Layer) (name : String) : Prop :=
  T[i]? = depthIn Γ name

theorem Alike.occurrence {a : Analysis} {Γ : List Layer} (h : Alike a.scopes (scopesOf Γ)) {i : Nat}
    {name : String} (hi : HasDepths T i Γ name) : T[i]? = a.depth? name :=
  hi.trans (h.depth? name).symm

theorem Alike.expr {a : Analysis} {Γ : List Layer} (h : Alike a.scopes (scopesOf Γ)) (e : Expr) :
    Alike (resolveExpr e a).scopes (scopesOf Γ) := by
  rwa [scopes_resolveExpr]

theorem Alike.stmt {a : Analysis} {Γ : List Layer} (h : Alike a.scopes (scopesOf Γ)) (s : Stmt) :
    Alike (resolveStmt s a).scopes (scopesOf (introduced Γ (declared s))) := by
  rw [scopes_resolveStmt, scopesOf_introduced]
  exact h.withNames _

/-- Behind a statement that declares nothing the scopes are the same. -/
theorem Alike.plain {a : Analysis} {Γ : List Layer} (h : Alike a.scopes (scopesOf Γ)) {s : Stmt}
    (hs : declared s = []) : Alike (resolveStmt s a).scopes (scopesOf Γ) := by
  have hbehind := h.stmt s
  rwa [hs, introduced_nil] at hbehind

theorem Alike.introduceNames {a : Analysis} {Γ : List Layer} (h : Alike a.scopes (scopesOf Γ))
    (name : Token) : Alike (a.introduce name).scopes (scopesOf (introduced Γ [name])) := by
  rw [scopes_introduce, scopesOf_introduced]
  exact h.withNames _

/-- A function is entered. -/
theorem Alike.called {a : Analysis} {Γ : List Layer} (h : Alike a.scopes (scopesOf Γ))
    (f : FunctionDecl) (body : Body) :
    Alike (f.params.foldl Analysis.introduce (a.enterFunction body)).scopes
      (scopesOf (.ofCall f :: Γ)) := by
  rw [scopes_introduceAll]
  exact .cons (fun _ => rfl) h

theorem methodBody_renamed {b : Bool} {marks : List Bool} {f f' : FunctionDecl}
    (h : f.Like (R.freshLikeness T) b marks f') : methodBody f' = methodBody f := by
  have hL : ∀ {b n n'}, (R.freshLikeness T).named b n n' → n'.lexeme = n.lexeme :=
    fun hn => congrArg Token.lexeme hn.1
  rw [methodBody, methodBody, h.displayName hL]

mutual

theorem resolveExpr_renamed (hself : R.Spares selfName) (e : Expr) {e' : Expr} {marks : List Bool}
    (h : e.Like (R.freshLikeness T) marks e') {Γ : List Layer} (hplaced : e.Placed (HasDepths T) Γ)
    {a a' : Analysis} (ha : a.Renamed R marks a') (hΓ : Alike a.scopes (scopesOf Γ)) :
    (resolveExpr e a).Renamed R marks (resolveExpr e' a') := by
  match e, h with
  | .literal _, .literal => exact ha
  | .unary _ operand, .unary _ he => exact resolveExpr_renamed hself operand he hplaced ha hΓ
  | .group inner, .group he => exact resolveExpr_renamed hself inner he hplaced ha hΓ
  | .binary left _ right, .binary hl _ hr =>
    exact resolveExpr_renamed hself right hr hplaced.2
      (resolveExpr_renamed hself left hl hplaced.1 ha hΓ) (hΓ.expr left)
  | .logical left _ right, .logical hl _ hr =>
    exact resolveExpr_renamed hself right hr hplaced.2
      (resolveExpr_renamed hself left hl hplaced.1 ha hΓ) (hΓ.expr left)
  | .conditional test yes no, .conditional htest hyes hno =>
    have hbehind := resolveExpr_renamed hself test htest hplaced.1 ha hΓ
    exact resolveExpr_renamed hself no hno hplaced.2.2
      (resolveExpr_renamed hself yes hyes hplaced.2.1 hbehind (hΓ.expr test))
      ((hΓ.expr test).expr yes)
  | .var i n, .var hn =>
    obtain ⟨rfl, rfl, hne⟩ := hn
    exact ha.read hne (hΓ.occurrence hplaced.1) n rfl
  | .self i keyword, .self hkeyword =>
    obtain ⟨rfl, rfl, -⟩ := hkeyword
    have hrecorded := ha.record hself.new (hΓ.occurrence hplaced.1)
    rw [hself.spell] at hrecorded
    unfold resolveExpr
    rw [ha.inClass]
    split
    · exact hrecorded
    · exact ha.complain _ _ _
  | .assign i n value, .assign hn he =>
    obtain ⟨rfl, rfl, hne⟩ := hn
    exact (resolveExpr_renamed hself value he hplaced.2 ha hΓ).record hne
      ((hΓ.expr value).occurrence hplaced.1.1)
  | .call callee _ arguments, .call hf _ hes =>
    exact resolveExprs_renamed hself arguments hes hplaced.2
      (resolveExpr_renamed hself callee hf hplaced.1 ha hΓ) (hΓ.expr callee)
  | .lambda decl, .lambda hf => exact resolveFunction_renamed hself decl hf .function hplaced ha hΓ
  | .array _ elements, .array _ hes => exact resolveExprs_renamed hself elements hes hplaced ha hΓ
  | .index _ base key, .index _ hbase hkey =>
    exact resolveExpr_renamed hself key hkey hplaced.2
      (resolveExpr_renamed hself base hbase hplaced.1 ha hΓ) (hΓ.expr base)
  | .indexSet _ base key value, .indexSet _ hbase hkey he =>
    have hbehind := resolveExpr_renamed hself base hbase hplaced.1 ha hΓ
    exact resolveExpr_renamed hself value he hplaced.2.2
      (resolveExpr_renamed hself key hkey hplaced.2.1 hbehind (hΓ.expr base))
      ((hΓ.expr base).expr key)
  | .get object _, .get he _ => exact resolveExpr_renamed hself object he hplaced ha hΓ
  | .set object _ value, .set hobject _ he =>
    exact resolveExpr_renamed hself value he hplaced.2
      (resolveExpr_renamed hself object hobject hplaced.1 ha hΓ) (hΓ.expr object)
termination_by structural e

theorem resolveExprs_renamed (hself : R.Spares selfName) (es : List Expr) {es' : List Expr}
    {marks : List Bool} (h : ExprsLike (R.freshLikeness T) marks es es') {Γ : List Layer}
    (hplaced : placedExprs (HasDepths T) es Γ) {a a' : Analysis} (ha : a.Renamed R marks a')
    (hΓ : Alike a.scopes (scopesOf Γ)) :
    (resolveExprs es a).Renamed R marks (resolveExprs es' a') := by
  match es, h with
  | [], .nil => exact ha
  | e :: es, .cons he hes =>
    exact resolveExprs_renamed hself es hes hplaced.2
      (resolveExpr_renamed hself e he hplaced.1 ha hΓ) (hΓ.expr e)
termination_by structural es

theorem resolveStmt_renamed (hself : R.Spares selfName) (s : Stmt) {s' : Stmt} {marks : List Bool}
    (h : s.Like (R.freshLikeness T) marks s') {Γ : List Layer} (hplaced : s.Placed (HasDepths T) Γ)
    {a a' : Analysis} (ha : a.Renamed R marks a') (hΓ : Alike a.scopes (scopesOf Γ)) :
    (resolveStmt s a).Renamed R marks (resolveStmt s' a') := by
  match s, h with
  | .expression e, .expression he => exact resolveExpr_renamed hself e he hplaced ha hΓ
  | .print e, .print he => exact resolveExpr_renamed hself e he hplaced ha hΓ
  | .var name none, .var hname =>
    obtain ⟨rfl, hne⟩ := hname
    exact ha.introduce hne
  | .var name (some e), .varValue hname he =>
    obtain ⟨rfl, hne⟩ := hname
    exact (resolveExpr_renamed hself e he hplaced.2 (ha.declare hne) (hΓ.declare name)).define hne
  | .block body, .block hss =>
    exact ha.closeScope (resolveStmts_renamed hself body hss hplaced (ha.openScope _ rfl)
      (.cons (fun _ => rfl) hΓ))
  | .ifElse test yes none, .ifThen htest hyes =>
    exact resolveStmt_renamed hself yes hyes hplaced.2.1
      (resolveExpr_renamed hself test htest hplaced.1 ha hΓ) (hΓ.expr test)
  | .ifElse test yes (some no), .ifElse htest hyes hno =>
    obtain ⟨htestPlaced, ⟨hyesPlaced, hyesNone⟩, hnoPlaced, -⟩ := hplaced
    have hbehind := resolveExpr_renamed hself test htest htestPlaced ha hΓ
    exact resolveStmt_renamed hself no hno hnoPlaced
      (resolveStmt_renamed hself yes hyes hyesPlaced hbehind (hΓ.expr test))
      ((hΓ.expr test).plain hyesNone)
  | .loop test body none, .loop htest hbody =>
    have hinside := (resolveExpr_renamed hself test htest hplaced.1 ha hΓ).enterLoop
    exact (resolveStmt_renamed hself body hbody hplaced.2.1 hinside (hΓ.expr test)).leaveLoop
  | .loop test body (some step), .loopStep htest hbody hstep =>
    obtain ⟨htestPlaced, ⟨hbodyPlaced, hbodyNone⟩, hstepPlaced, -⟩ := hplaced
    have hinside := (resolveExpr_renamed hself test htest htestPlaced ha hΓ).enterLoop
    have hinsideΓ : Alike (resolveExpr test a).enterLoop.scopes (scopesOf Γ) := hΓ.expr test
    have hloop := (resolveStmt_renamed hself body hbody hbodyPlaced hinside hinsideΓ).leaveLoop
    exact hloop.closeScope (resolveStmt_renamed hself step hstep hstepPlaced (hloop.openScope _ rfl)
      (.cons (fun _ => rfl) (hinsideΓ.plain hbodyNone)))
  | .exitLoop _, .exitLoop _ => exact ha.requireLoop _ _ _
  | .nextIteration _, .nextIteration _ => exact ha.requireLoop _ _ _
  | .function decl, .function _ hf =>
    unfold resolveStmt
    refine resolveFunction_renamed hself decl hf .function hplaced.2 ?_ ?_
    · cases hf with
      | mk hname _ _ =>
        cases hname with
        | none => exact ha
        | some hname => exact ha.introduceNamed hname
    · cases hname : decl.name? with
      | none => simpa [introduced_nil] using hΓ
      | some name => exact hΓ.introduceNames name
  | .result _ none, .result _ => exact ha.complainIn .program _ _ _
  | .result keyword (some e), .resultValue hk he =>
    cases hk
    have hbefore := (ha.complainIn .program keyword keyword .topLevelReturn).complainIn .initializer
      keyword keyword .initializerReturn
    refine resolveExpr_renamed hself e he hplaced hbefore ?_
    have hscopes : ∀ (b : Analysis) (body : Body) (cause : Cause),
        (if b.body = body then b.complain keyword cause else b).scopes = b.scopes := by
      intro b body cause
      split <;> rfl
    rwa [hscopes, hscopes]
  | .classDecl name methods, .classDecl hname hfs =>
    have hclass : Analysis.Renamed R marks { a with inClass := true } { a' with inClass := true } :=
      ⟨ha.scopes, ha.body, rfl, ha.loops, ha.depths, ha.reports⟩
    have hreceiver : Bindings.binds R.new [(selfName, Stage.defined)] = false := by
      simp [Bindings.binds, Bindings.find?, hself.new]
    have hnamed := hclass.introduceNamed hname
    have hinside := hnamed.openScope false hreceiver
    have hinsideΓ : Alike ({ a with inClass := true }.introduce name).scopes
        (scopesOf (introduced Γ [name])) :=
      Alike.introduceNames (a := { a with inClass := true }) hΓ name
    have hmethods := hnamed.closeScope (resolveMethods_renamed hself methods hfs hplaced.2 hinside
      (.cons (fun _ => rfl) hinsideΓ))
    exact ⟨hmethods.scopes, hmethods.body, ha.inClass, hmethods.loops, hmethods.depths,
      hmethods.reports⟩
termination_by structural s

theorem resolveStmts_renamed (hself : R.Spares selfName) (ss : List Stmt) {ss' : List Stmt}
    {marks : List Bool} (h : StmtsLike (R.freshLikeness T) marks ss ss') {Γ : List Layer}
    (hplaced : placedStmts (HasDepths T) ss Γ) {a a' : Analysis} (ha : a.Renamed R marks a')
    (hΓ : Alike a.scopes (scopesOf Γ)) :
    (resolveStmts ss a).Renamed R marks (resolveStmts ss' a') := by
  match ss, h with
  | [], .nil => exact ha
  | s :: ss, .cons hs hss =>
    exact resolveStmts_renamed hself ss hss hplaced.2
      (resolveStmt_renamed hself s hs hplaced.1 ha hΓ) (hΓ.stmt s)
termination_by structural ss

theorem resolveFunction_renamed (hself : R.Spares selfName) (f : FunctionDecl) {f' : FunctionDecl}
    {b : Bool} {marks : List Bool} (h : f.Like (R.freshLikeness T) b marks f') (body : Body)
    {Γ : List Layer}
    (hplaced : f.Placed (HasDepths T) Γ) {a a' : Analysis} (ha : a.Renamed R marks a')
    (hΓ : Alike a.scopes (scopesOf Γ)) :
    (resolveFunction f body a).Renamed R marks (resolveFunction f' body a') := by
  match f, h with
  | ⟨name?, params, ss⟩, .mk _ hparams hbody =>
    have hinside := (ha.enterFunction body _).introduceAll hparams
    exact ha.leaveFunction (resolveStmts_renamed hself ss hbody hplaced.2 hinside
      (hΓ.called ⟨name?, params, ss⟩ body))
termination_by structural f

theorem resolveMethods_renamed (hself : R.Spares selfName) (fs : List FunctionDecl)
    {fs' : List FunctionDecl} {marks : List Bool}
    (h : FunctionsLike (R.freshLikeness T) (false :: marks) fs fs')
    {Γ : List Layer} (hplaced : placedMethods (HasDepths T) fs Γ) {a a' : Analysis}
    (ha : a.Renamed R (false :: marks) a')
    (hΓ : Alike a.scopes ([(selfName, .defined)] :: scopesOf Γ)) :
    (resolveMethods fs a).Renamed R (false :: marks) (resolveMethods fs' a') := by
  match fs, h with
  | [], .nil => exact ha
  | f :: fs, .cons hf hfs =>
    have hfirst := resolveFunction_renamed hself f hf (methodBody f) hplaced.1 ha hΓ
    unfold resolveMethods
    rw [methodBody_renamed hf]
    refine resolveMethods_renamed hself fs hfs hplaced.2 hfirst ?_
    rwa [scopes_resolveFunction]
termination_by structural fs

end

/-- **A renamed program is analysed in the same way.** -/
theorem resolve_renamed (hself : R.Spares selfName) {program program' : List Stmt}
    (h : StmtsLike (R.freshLikeness T) [false] program program')
    (hplaced : placedStmts (HasDepths T) program []) (depths : Depths) :
    (resolve program' depths).depths = (resolve program depths).depths ∧
      (resolve program' depths).accepted = (resolve program depths).accepted := by
  have hstart : Analysis.Renamed R [false] (.start depths) (.start depths) :=
    ⟨.globals, rfl, rfl, rfl, rfl, rfl⟩
  have hanalysis := resolveStmts_renamed hself program h hplaced hstart .nil
  refine ⟨hanalysis.depths, ?_⟩
  rw [Analysis.accepted, Analysis.accepted, resolve, resolve, Array.isEmpty, Array.isEmpty,
    hanalysis.reports]

end Scope

end Roteiro
