import Roteiro.Proofs.Scope.Visits

/-!
# What the analysis complains about

`findings` lists the complaints about a program in the order in which the analysis comes by what is
wrong. What is said about an expression depends on its place alone: on the scopes around it and on
whether there is a receiver. About a statement it depends on the function and the loops around it as
well. So the analysis has the same to say about both copies of the step of a counted loop, and says
it twice.

* `reports_resolve`: what is reported is what is listed.
* `findings_loop`: both copies of a step are found fault with in the same way.
-/

namespace Roteiro

namespace Scope

namespace Place

/-- Whether a name is declared in the innermost scope. -/
def binds (p : Place) (name : String) : Bool := p.scopes.head?.any fun scope => scope.binds name

/-- Whether the variable with this name is being initialized. -/
def awaits (p : Place) (name : String) : Bool :=
  p.scopes.head?.any fun scope => scope.find? name = some .declared

/-- The complaints about the names that are declared, one after the other. -/
def clashes (p : Place) : List Token → List Report
  | [] => []
  | name :: names =>
    (if p.binds name.lexeme then [.resolve name .alreadyDeclared] else []) ++
      (p.after [name]).clashes names

end Place

end Scope

open Scope

mutual

/-- The complaints about an expression. -/
def Expr.findings : Expr → Place → List Report
  | .literal _, _ => []
  | .unary _ operand, p => operand.findings p
  | .binary left _ right, p => left.findings p ++ right.findings p
  | .group inner, p => inner.findings p
  | .logical left _ right, p => left.findings p ++ right.findings p
  | .conditional test yes no, p => test.findings p ++ (yes.findings p ++ no.findings p)
  | .var _ name, p => if p.awaits name.lexeme then [.resolve name .ownInitializer] else []
  | .assign _ _ value, p => value.findings p
  | .call callee _ arguments, p => callee.findings p ++ findingsOfExprs arguments p
  | .lambda decl, p => decl.findings .function p
  | .array _ elements, p => findingsOfExprs elements p
  | .index _ base key, p => base.findings p ++ key.findings p
  | .indexSet _ base key value, p => base.findings p ++ (key.findings p ++ value.findings p)
  | .get object _, p => object.findings p
  | .set object _ value, p => object.findings p ++ value.findings p
  | .self _ keyword, p => if p.inClass then [] else [.resolve keyword .selfOutsideClass]

/-- The complaints about several expressions. -/
def findingsOfExprs : List Expr → Place → List Report
  | [], _ => []
  | e :: es, p => e.findings p ++ findingsOfExprs es p

/-- The complaints about a statement, in a body of this kind, inside of a loop or not. -/
def Stmt.findings : Stmt → Body → Bool → Place → List Report
  | .expression expr, _, _, p => expr.findings p
  | .print expr, _, _, p => expr.findings p
  | .var name none, _, _, p => p.clashes [name]
  | .var name (some value), _, _, p => p.clashes [name] ++ value.findings (p.initializing name)
  | .block body, around, inLoop, p => findingsOfStmts body around inLoop (p.inside [])
  | .ifElse test yes none, around, inLoop, p => test.findings p ++ yes.findings around inLoop p
  | .ifElse test yes (some no), around, inLoop, p =>
    test.findings p ++
      (yes.findings around inLoop p ++ no.findings around inLoop (p.after (declared yes)))
  | .loop test body none, around, _, p => test.findings p ++ body.findings around true p
  | .loop test body (some step), around, inLoop, p =>
    test.findings p ++ (body.findings around true p ++
      step.findings around inLoop ((p.after (declared body)).inside []))
  | .exitLoop keyword, _, inLoop, _ =>
    if inLoop then [] else [.resolve keyword .breakOutsideLoop]
  | .nextIteration keyword, _, inLoop, _ =>
    if inLoop then [] else [.resolve keyword .continueOutsideLoop]
  | .function decl, _, _, p =>
    p.clashes decl.name?.toList ++ decl.findings .function (p.after decl.name?.toList)
  | .result keyword none, around, _, _ =>
    if around = .program then [.resolve keyword .topLevelReturn] else []
  | .result keyword (some value), around, _, p =>
    (if around = .program then [.resolve keyword .topLevelReturn] else []) ++
      ((if around = .initializer then [.resolve keyword .initializerReturn] else []) ++
        value.findings p)
  | .classDecl name methods, _, _, p =>
    p.clashes [name] ++ findingsOfMethods methods (p.methods name)

/-- The complaints about several statements. -/
def findingsOfStmts : List Stmt → Body → Bool → Place → List Report
  | [], _, _, _ => []
  | s :: ss, around, inLoop, p =>
    s.findings around inLoop p ++ findingsOfStmts ss around inLoop (p.after (declared s))

/-- The complaints about a function with a body of this kind. -/
def FunctionDecl.findings : FunctionDecl → Body → Place → List Report
  | ⟨_, params, statements⟩, body, p =>
    (p.inside []).clashes params ++ findingsOfStmts statements body false (p.body params)

/-- The complaints about several methods. -/
def findingsOfMethods : List FunctionDecl → Place → List Report
  | [], _ => []
  | f :: fs, p => f.findings (methodBody f) p ++ findingsOfMethods fs p

end

namespace Scope

/-- What there is to complain about in a program. -/
def findings (program : List Stmt) : List Report :=
  findingsOfStmts program .program false ⟨[], false⟩

open Analysis

/-! ### The complaints of the analysis -/

/-- Whether a loop of the present function is open. -/
def Analysis.inLoop (a : Analysis) : Bool := a.loops ≠ 0

/-- `Adds a b rs`: between `a` and `b` these complaints have been made. -/
def Adds (a b : Analysis) (rs : List Report) : Prop := b.reports.toList = a.reports.toList ++ rs

section Adds

variable {a b c : Analysis} {rs rs' : List Report}

theorem Adds.refl (a : Analysis) : Adds a a [] := (List.append_nil _).symm

theorem Adds.trans (h : Adds a b rs) (h' : Adds b c rs') : Adds a c (rs ++ rs') := by
  rw [Adds] at *
  rw [h', h, List.append_assoc]

/-- What happens without a complaint makes no difference. -/
theorem Adds.congr (h : Adds a b rs) {a' b' : Analysis} (ha : a'.reports = a.reports)
    (hb : b'.reports = b.reports) : Adds a' b' rs := by
  rwa [Adds, ha, hb]

theorem adds_complainIf (p : Prop) [Decidable p] (a : Analysis) (t : Token) (cause : Cause) :
    Adds a (if p then a.complain t cause else a) (if p then [.resolve t cause] else []) := by
  split
  · simp [Adds, complain]
  · exact .refl a

theorem adds_declare (a : Analysis) (name : Token) :
    Adds a (a.declare name)
      (if a.place.binds name.lexeme then [.resolve name .alreadyDeclared] else []) := by
  unfold declare Place.binds place
  cases hscopes : a.scopes with
  | nil => exact .refl a
  | cons scope outer =>
    simp only [List.head?_cons, Option.any_some]
    split
    · next hbound => simp [Adds, complain, hbound]
    · next hfree => simp [Adds, hfree]

theorem adds_introduceAll (names : List Token) (a : Analysis) :
    Adds a (names.foldl introduce a) (a.place.clashes names) := by
  induction names generalizing a with
  | nil => exact .refl a
  | cons name names ih =>
    have hname := (adds_declare a name).congr rfl (reports_define _ name)
    have hnames := ih (a.introduce name)
    rw [place_introduce] at hnames
    exact hname.trans hnames

theorem adds_introduce (a : Analysis) (name : Token) :
    Adds a (a.introduce name) (a.place.clashes [name]) :=
  adds_introduceAll [name] a

theorem inLoop_of_later (h : Later a b) : b.inLoop = a.inLoop := by
  rw [Analysis.inLoop, Analysis.inLoop, h.loops]

theorem adds_requireLoop (a : Analysis) (keyword : Token) (cause : Cause) :
    Adds a (a.requireLoop keyword cause) (if a.inLoop then [] else [.resolve keyword cause]) := by
  have hadds := adds_complainIf (a.loops = 0) a keyword cause
  have hsame : (if a.inLoop then [] else [Report.resolve keyword cause]) =
      if a.loops = 0 then [.resolve keyword cause] else [] := by
    by_cases h : a.loops = 0 <;> simp [Analysis.inLoop, h]
  rwa [hsame]

end Adds

mutual

theorem adds_resolveExpr (e : Expr) (a : Analysis) :
    Adds a (resolveExpr e a) (e.findings a.place) := by
  match e with
  | .literal _ => exact .refl a
  | .unary _ operand => exact adds_resolveExpr operand a
  | .group inner => exact adds_resolveExpr inner a
  | .binary left _ right | .logical left _ right =>
    have hright := adds_resolveExpr right (resolveExpr left a)
    rw [place_resolveExpr] at hright
    exact (adds_resolveExpr left a).trans hright
  | .conditional test yes no =>
    have hyes := adds_resolveExpr yes (resolveExpr test a)
    have hno := adds_resolveExpr no (resolveExpr yes (resolveExpr test a))
    rw [place_resolveExpr] at hyes
    rw [place_resolveExpr, place_resolveExpr] at hno
    exact (adds_resolveExpr test a).trans (hyes.trans hno)
  | .var id name =>
    have hread := adds_complainIf (a.inOwnInitializer name.lexeme) a name .ownInitializer
    exact hread.congr rfl (reports_record _ id name.lexeme)
  | .assign id name value =>
    exact (adds_resolveExpr value a).congr rfl (reports_record _ id name.lexeme)
  | .call callee _ arguments =>
    have harguments := adds_resolveExprs arguments (resolveExpr callee a)
    rw [place_resolveExpr] at harguments
    exact (adds_resolveExpr callee a).trans harguments
  | .lambda decl => exact adds_resolveFunction decl .function a
  | .array _ elements => exact adds_resolveExprs elements a
  | .index _ base key =>
    have hkey := adds_resolveExpr key (resolveExpr base a)
    rw [place_resolveExpr] at hkey
    exact (adds_resolveExpr base a).trans hkey
  | .indexSet _ base key value =>
    have hkey := adds_resolveExpr key (resolveExpr base a)
    have hvalue := adds_resolveExpr value (resolveExpr key (resolveExpr base a))
    rw [place_resolveExpr] at hkey
    rw [place_resolveExpr, place_resolveExpr] at hvalue
    exact (adds_resolveExpr base a).trans (hkey.trans hvalue)
  | .get object _ => exact adds_resolveExpr object a
  | .set object _ value =>
    have hvalue := adds_resolveExpr value (resolveExpr object a)
    rw [place_resolveExpr] at hvalue
    exact (adds_resolveExpr object a).trans hvalue
  | .self id keyword =>
    unfold resolveExpr Expr.findings
    have hclass : a.place.inClass = a.inClass := rfl
    rw [hclass]
    split
    · exact (Adds.refl a).congr rfl (reports_record a id selfName)
    · simp [Adds, complain]

theorem adds_resolveExprs (es : List Expr) (a : Analysis) :
    Adds a (resolveExprs es a) (findingsOfExprs es a.place) := by
  match es with
  | [] => exact .refl a
  | e :: es =>
    have hes := adds_resolveExprs es (resolveExpr e a)
    rw [place_resolveExpr] at hes
    exact (adds_resolveExpr e a).trans hes

theorem adds_resolveStmt (s : Stmt) (a : Analysis) :
    Adds a (resolveStmt s a) (s.findings a.body a.inLoop a.place) := by
  match s with
  | .expression expr => exact adds_resolveExpr expr a
  | .print expr => exact adds_resolveExpr expr a
  | .var name none => exact adds_introduce a name
  | .var name (some value) =>
    have hvalue := adds_resolveExpr value (a.declare name)
    rw [place_declare] at hvalue
    have hname := adds_introduce a name
    exact (hname.congr rfl (reports_define _ name).symm).trans
      (hvalue.congr rfl (reports_define _ name))
  | .block body => exact adds_resolveStmts body (a.openScope [])
  | .ifElse test yes none =>
    have hyes := adds_resolveStmt yes (resolveExpr test a)
    have htest := resolveExpr_later test a
    rw [place_resolveExpr, htest.body, inLoop_of_later htest] at hyes
    exact (adds_resolveExpr test a).trans hyes
  | .ifElse test yes (some no) =>
    have hyes := adds_resolveStmt yes (resolveExpr test a)
    have hno := adds_resolveStmt no (resolveStmt yes (resolveExpr test a))
    have htest := resolveExpr_later test a
    have hboth := htest.trans (resolveStmt_later yes _)
    rw [place_resolveExpr, htest.body, inLoop_of_later htest] at hyes
    rw [place_resolveStmt, place_resolveExpr, hboth.body, inLoop_of_later hboth] at hno
    exact (adds_resolveExpr test a).trans (hyes.trans hno)
  | .loop test body none =>
    have hbody := adds_resolveStmt body (resolveExpr test a).enterLoop
    have hplace : (resolveExpr test a).enterLoop.place = a.place := place_resolveExpr test a
    have haround : (resolveExpr test a).enterLoop.body = a.body := (resolveExpr_later test a).body
    rw [hplace, haround] at hbody
    exact (adds_resolveExpr test a).trans hbody
  | .loop test body (some step) =>
    let b := (resolveExpr test a).enterLoop
    have hbody := adds_resolveStmt body b
    have hplace : b.place = a.place := place_resolveExpr test a
    have haround : b.body = a.body := (resolveExpr_later test a).body
    -- the copy beside the loop is looked at behind the body, and outside of the loop
    let c := (resolveStmt body b).leaveLoop
    have hstep := adds_resolveStmt step (c.openScope [])
    have hlater : Later a c := later_loop (resolveExpr_later test a) (resolveStmt_later body b)
    have hbehind : (c.openScope []).place = (a.place.after (declared body)).inside [] := by
      show ((resolveStmt body b).place).inside [] = _
      rw [place_resolveStmt, hplace]
    have haround' : (c.openScope []).body = a.body := hlater.body
    have hloops : c.inLoop = a.inLoop := inLoop_of_later hlater
    have hloops' : (c.openScope []).inLoop = a.inLoop := hloops
    rw [hplace, haround] at hbody
    rw [hbehind, haround', hloops'] at hstep
    exact (adds_resolveExpr test a).trans (hbody.trans hstep)
  | .exitLoop keyword => exact adds_requireLoop a keyword _
  | .nextIteration keyword => exact adds_requireLoop a keyword _
  | .function decl =>
    unfold resolveStmt Stmt.findings
    cases decl.name? with
    | none =>
      rw [Option.toList_none, Place.after_nil]
      exact adds_resolveFunction decl .function a
    | some name =>
      have hdecl := adds_resolveFunction decl .function (a.introduce name)
      rw [place_introduce] at hdecl
      exact (adds_introduce a name).trans hdecl
  | .result keyword none => exact adds_complainIf (a.body = .program) a keyword _
  | .result keyword (some value) =>
    let b := if a.body = .program then a.complain keyword .topLevelReturn else a
    let c := if b.body = .initializer then b.complain keyword .initializerReturn else b
    have hb : Adds a b _ := adds_complainIf (a.body = .program) a keyword _
    have hc : Adds b c _ := adds_complainIf (b.body = .initializer) b keyword _
    have hvalue := adds_resolveExpr value c
    have haround : b.body = a.body := (later_complainIf (a.body = .program) a keyword _).body
    have hplace : c.place = a.place :=
      (place_complainIf _ b keyword _).trans (place_complainIf _ a keyword _)
    rw [haround] at hc
    rw [hplace] at hvalue
    exact hb.trans (hc.trans hvalue)
  | .classDecl name methods =>
    have hname := adds_introduce { a with inClass := true } name
    have hmethods := adds_resolveMethods methods
      (({ a with inClass := true }.introduce name).openScope [(selfName, .defined)])
    rw [place_methods] at hmethods
    exact hname.trans hmethods

theorem adds_resolveStmts (ss : List Stmt) (a : Analysis) :
    Adds a (resolveStmts ss a) (findingsOfStmts ss a.body a.inLoop a.place) := by
  match ss with
  | [] => exact .refl a
  | s :: ss =>
    have hss := adds_resolveStmts ss (resolveStmt s a)
    have hlater := resolveStmt_later s a
    rw [place_resolveStmt, hlater.body, inLoop_of_later hlater] at hss
    exact (adds_resolveStmt s a).trans hss

theorem adds_resolveFunction (f : FunctionDecl) (body : Body) (a : Analysis) :
    Adds a (resolveFunction f body a) (f.findings body a.place) := by
  match f with
  | ⟨_, params, statements⟩ =>
    let b := a.enterFunction body
    have hparams := adds_introduceAll params b
    have hstatements := adds_resolveStmts statements (params.foldl introduce b)
    have hlater := later_introduceAll params b
    rw [place_introduceAll, hlater.body, inLoop_of_later hlater] at hstatements
    exact hparams.trans hstatements

theorem adds_resolveMethods (fs : List FunctionDecl) (a : Analysis) :
    Adds a (resolveMethods fs a) (findingsOfMethods fs a.place) := by
  match fs with
  | [] => exact .refl a
  | f :: fs =>
    have hfs := adds_resolveMethods fs (resolveFunction f (methodBody f) a)
    rw [place_resolveFunction] at hfs
    exact (adds_resolveFunction f (methodBody f) a).trans hfs

end

/-- **What is reported about a program is what is listed**, whatever depths were found before. -/
theorem reports_resolve (program : List Stmt) (T : Depths) :
    (resolve program T).reports.toList = findings program :=
  adds_resolveStmts program (.start T)

/-! ### The copies of a step -/

/-- The complaints about what a loop with a step repeats. -/
theorem findings_repeated (e : Expr) {b : Stmt} (hb : b.BindsNothing) (around : Body)
    (inLoop : Bool) (p : Place) : (Stmt.block [b, .expression e]).findings around inLoop p =
      b.findings around inLoop (p.inside []) ++ e.findings (p.inside []) := by
  simp [Stmt.findings, findingsOfStmts, declared_of_bindsNothing b hb]

/-- **Both copies of a step are found fault with in the same way.** -/
theorem findings_loop (test e : Expr) {b : Stmt} (hb : b.BindsNothing) (around : Body)
    (inLoop : Bool) (p : Place) :
    (Stmt.loop test (.block [b, .expression e]) (some (.expression e))).findings around inLoop p =
      test.findings p ++ (b.findings around true (p.inside []) ++
        (e.findings (p.inside []) ++ e.findings (p.inside []))) := by
  have hbeside : (Stmt.expression e).findings around inLoop
      ((p.after (declared (.block [b, .expression e]))).inside []) = e.findings (p.inside []) := by
    show e.findings ((p.after []).inside []) = _
    rw [Place.after_nil]
  rw [← List.append_assoc (b.findings _ _ _), ← findings_repeated e hb around true p, ← hbeside]
  rfl

end Scope

end Roteiro
