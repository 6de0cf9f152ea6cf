import Roteiro.Scope.Resolve

/-!
# How the analysis moves on

The analysis is threaded through the whole tree, but a piece of the tree changes little of it. The
place (the function, the class and the loops around) is the same behind a piece as before it, the
complaints only grow, and the stack of scopes gets the names that the piece declares in the
innermost scope, whatever it opened and closed in between.

* `resolveExpr_later`, `resolveStmt_later` and their companions: the place and the complaints.
* `scopes_resolveExpr`, `scopes_resolveStmt` and their companions: the stack of scopes, exactly.
-/

namespace Roteiro

namespace Scope

/-- The names that a statement declares in the scope it stands in. -/
def declared : Stmt → List Token
  | .var name _ => [name]
  | .function decl => decl.name?.toList
  | .classDecl name _ => [name]
  | .ifElse _ yes none => declared yes
  | .ifElse _ yes (some no) => declared yes ++ declared no
  | .loop _ body _ => declared body
  | _ => []

/-- The names that several statements declare in the scope they stand in. -/
def declaredBy (stmts : List Stmt) : List Token := stmts.flatMap declared

/-- A scope with some further names. -/
def withDefined (scope : Bindings Stage) (names : List Token) : Bindings Stage :=
  names.foldl (fun (b : Bindings Stage) name => b.insert name.lexeme .defined) scope

/-- A stack of scopes, the innermost with some further names. -/
def withNames : List (Bindings Stage) → List Token → List (Bindings Stage)
  | [], _ => []
  | scope :: outer, names => withDefined scope names :: outer

theorem withNames_nil (scopes : List (Bindings Stage)) : withNames scopes [] = scopes := by
  cases scopes <;> rfl

theorem withNames_append (scopes : List (Bindings Stage)) (xs ys : List Token) :
    withNames scopes (xs ++ ys) = withNames (withNames scopes xs) ys := by
  cases scopes with
  | nil => rfl
  | cons scope outer => simp only [withNames, withDefined, List.foldl_append]

/-- The new names are defined, and all others stay what they were. -/
theorem stage_withDefined (scope : Bindings Stage) (names : List Token) (x : String) :
    (withDefined scope names).find? x =
      if x ∈ names.map Token.lexeme then some .defined else scope.find? x := by
  induction names generalizing scope with
  | nil => rfl
  | cons name names ih =>
    rw [withDefined, List.foldl_cons, ← withDefined, ih]
    by_cases hx : x = name.lexeme
    · subst hx
      rw [Bindings.find?_insert_self, ite_self]
      exact (if_pos List.mem_cons_self).symm
    · simp only [Bindings.find?_insert_of_ne hx, List.map_cons, List.mem_cons, hx, false_or]

namespace Analysis

/-- `Ahead a a'`: the complaints of `a'` are those of `a` and perhaps some more. -/
def Ahead (a a' : Analysis) : Prop := ∃ more, a'.reports = a.reports ++ more

theorem Ahead.refl (a : Analysis) : Ahead a a := ⟨#[], by simp⟩

theorem Ahead.trans {a b c : Analysis} (h : Ahead a b) (h' : Ahead b c) : Ahead a c := by
  obtain ⟨more, hb⟩ := h
  obtain ⟨more', hc⟩ := h'
  exact ⟨more ++ more', by rw [hc, hb, Array.append_assoc]⟩

/-- As long as there is nothing to complain about, there was nothing before. -/
theorem Ahead.silent {a a' : Analysis} (h : Ahead a a') (h' : a'.reports = #[]) :
    a.reports = #[] := by
  obtain ⟨more, hmore⟩ := h
  rw [h'] at hmore
  exact (Array.append_eq_empty_iff.mp hmore.symm).1

/-- `Later a a'`: the analysis came from `a` to `a'`, which is at the same place of the program as
far as functions, classes and loops are concerned. -/
structure Later (a a' : Analysis) : Prop where
  body : a'.body = a.body
  inClass : a'.inClass = a.inClass
  loops : a'.loops = a.loops
  ahead : Ahead a a'

theorem Later.refl (a : Analysis) : Later a a := ⟨rfl, rfl, rfl, .refl a⟩

theorem Later.trans {a b c : Analysis} (h : Later a b) (h' : Later b c) : Later a c :=
  ⟨h'.body.trans h.body, h'.inClass.trans h.inClass, h'.loops.trans h.loops,
    h.ahead.trans h'.ahead⟩

theorem later_complain (a : Analysis) (t : Token) (cause : Cause) : Later a (a.complain t cause) :=
  ⟨rfl, rfl, rfl, #[.resolve t cause], by simp [complain]⟩

/-- A complaint on some condition. -/
theorem later_complainIf (p : Prop) [Decidable p] (a : Analysis) (t : Token) (cause : Cause) :
    Later a (if p then a.complain t cause else a) := by
  split
  · exact later_complain a t cause
  · exact .refl a

theorem later_declare (a : Analysis) (name : Token) : Later a (a.declare name) := by
  unfold declare
  split
  · exact .refl a
  · split
    · exact later_complain a name _
    · exact ⟨rfl, rfl, rfl, .refl a⟩

theorem later_define (a : Analysis) (name : Token) : Later a (a.define name) := by
  unfold define
  split
  · exact .refl a
  · exact ⟨rfl, rfl, rfl, .refl a⟩

theorem later_introduce (a : Analysis) (name : Token) : Later a (a.introduce name) :=
  (later_declare a name).trans (later_define _ name)

theorem later_record (a : Analysis) (id : Nat) (name : String) : Later a (a.record id name) := by
  unfold record
  split
  · exact ⟨rfl, rfl, rfl, .refl a⟩
  · exact .refl a

theorem later_requireLoop (a : Analysis) (keyword : Token) (cause : Cause) :
    Later a (a.requireLoop keyword cause) :=
  later_complainIf _ a keyword cause

theorem later_loop {a a' a'' : Analysis} (htest : Later a a') (hbody : Later a'.enterLoop a'') :
    Later a a''.leaveLoop := by
  refine htest.trans ⟨hbody.body, hbody.inClass, ?_, hbody.ahead⟩
  have hloops : a''.loops = a'.loops + 1 := hbody.loops
  simp only [leaveLoop, hloops, Nat.add_sub_cancel]

theorem later_introduceAll (names : List Token) (a : Analysis) :
    Later a (names.foldl introduce a) := by
  induction names generalizing a with
  | nil => exact .refl a
  | cons name names ih => exact (later_introduce a name).trans (ih _)

theorem scopes_introduce (a : Analysis) (name : Token) :
    (a.introduce name).scopes = withNames a.scopes [name] := by
  obtain ⟨scopes, body, inClass, loops, depths, reports⟩ := a
  cases scopes with
  | nil => rfl
  | cons scope outer =>
    unfold introduce declare
    by_cases h : scope.binds name.lexeme
    · simp only [h, if_true]
      rfl
    · simp only [h, Bool.false_eq_true, if_false, define, withNames, withDefined, List.foldl]
      have hself : Bindings.binds name.lexeme ((name.lexeme, Stage.declared) :: scope) = true := by
        simp [Bindings.binds, Bindings.find?]
      simp [Bindings.insert, h, hself, Bindings.replace]

theorem scopes_define (a : Analysis) (name : Token) :
    (a.define name).scopes = withNames a.scopes [name] := by
  unfold define
  split <;> rename_i heq <;> rw [heq] <;> rfl

theorem scopes_introduceAll (names : List Token) (a : Analysis) :
    (names.foldl introduce a).scopes = withNames a.scopes names := by
  induction names generalizing a with
  | nil => exact (withNames_nil a.scopes).symm
  | cons name names ih =>
    rw [List.foldl_cons, ih, scopes_introduce, ← withNames_append]
    rfl

@[simp] theorem scopes_complain (a : Analysis) (t : Token) (cause : Cause) :
    (a.complain t cause).scopes = a.scopes := rfl

@[simp] theorem scopes_record (a : Analysis) (id : Nat) (name : String) :
    (a.record id name).scopes = a.scopes := by
  unfold record
  split <;> rfl

@[simp] theorem scopes_requireLoop (a : Analysis) (keyword : Token) (cause : Cause) :
    (a.requireLoop keyword cause).scopes = a.scopes := by
  unfold requireLoop
  split <;> rfl

@[simp] theorem reports_record (a : Analysis) (id : Nat) (name : String) :
    (a.record id name).reports = a.reports := by
  unfold record
  split <;> rfl

@[simp] theorem reports_define (a : Analysis) (name : Token) :
    (a.define name).reports = a.reports := by
  unfold define
  split <;> rfl

end Analysis

open Analysis

/-- The scope of a block is closed behind the names that were declared in it. -/
theorem tail_of_opened {a a' : Analysis} {scope : Bindings Stage} {names : List Token}
    (h : a'.scopes = withNames (a.openScope scope).scopes names) :
    a'.closeScope.scopes = a.scopes := by
  rw [closeScope, h]
  rfl

/-! ### The place and the complaints -/

mutual

theorem resolveExpr_later (e : Expr) (a : Analysis) : Later a (resolveExpr e a) := by
  match e with
  | .literal _ => exact .refl a
  | .unary _ operand => exact resolveExpr_later operand a
  | .group inner => exact resolveExpr_later inner a
  | .binary left _ right => exact (resolveExpr_later left a).trans (resolveExpr_later right _)
  | .logical left _ right => exact (resolveExpr_later left a).trans (resolveExpr_later right _)
  | .conditional test yes no =>
    have hyes := (resolveExpr_later test a).trans (resolveExpr_later yes _)
    exact hyes.trans (resolveExpr_later no _)
  | .var id name =>
    unfold resolveExpr
    exact (later_complainIf _ a name _).trans (later_record _ id name.lexeme)
  | .assign id name value => exact (resolveExpr_later value a).trans (later_record _ id _)
  | .call callee _ arguments =>
    exact (resolveExpr_later callee a).trans (resolveExprs_later arguments _)
  | .lambda decl => exact resolveFunction_later decl .function a
  | .array _ elements => exact resolveExprs_later elements a
  | .index _ base key => exact (resolveExpr_later base a).trans (resolveExpr_later key _)
  | .indexSet _ base key value =>
    have hkey := (resolveExpr_later base a).trans (resolveExpr_later key _)
    exact hkey.trans (resolveExpr_later value _)
  | .get object _ => exact resolveExpr_later object a
  | .set object _ value => exact (resolveExpr_later object a).trans (resolveExpr_later value _)
  | .self id keyword =>
    unfold resolveExpr
    split
    · exact later_record a id selfName
    · exact later_complain a keyword _

theorem resolveExprs_later (es : List Expr) (a : Analysis) : Later a (resolveExprs es a) := by
  match es with
  | [] => exact .refl a
  | e :: es => exact (resolveExpr_later e a).trans (resolveExprs_later es _)

theorem resolveStmt_later (s : Stmt) (a : Analysis) : Later a (resolveStmt s a) := by
  match s with
  | .expression expr => exact resolveExpr_later expr a
  | .print expr => exact resolveExpr_later expr a
  | .var name none => exact later_introduce a name
  | .var name (some value) =>
    have hvalue := (later_declare a name).trans (resolveExpr_later value _)
    exact hvalue.trans (later_define _ name)
  | .block body =>
    obtain ⟨hbody, hclass, hloops, hahead⟩ := resolveStmts_later body (a.openScope [])
    exact ⟨hbody, hclass, hloops, hahead⟩
  | .ifElse test yes none => exact (resolveExpr_later test a).trans (resolveStmt_later yes _)
  | .ifElse test yes (some no) =>
    have hyes := (resolveExpr_later test a).trans (resolveStmt_later yes _)
    exact hyes.trans (resolveStmt_later no _)
  | .loop test body none => exact later_loop (resolveExpr_later test a) (resolveStmt_later body _)
  | .loop test body (some step) =>
    have hloop := later_loop (resolveExpr_later test a) (resolveStmt_later body _)
    obtain ⟨hbody, hclass, hloops, hahead⟩ := resolveStmt_later step (.openScope _ [])
    exact hloop.trans ⟨hbody, hclass, hloops, hahead⟩
  | .exitLoop keyword => exact later_requireLoop a keyword _
  | .nextIteration keyword => exact later_requireLoop a keyword _
  | .function decl =>
    unfold resolveStmt
    cases decl.name? with
    | none => exact resolveFunction_later decl .function a
    | some name => exact (later_introduce a name).trans (resolveFunction_later decl .function _)
  | .result keyword none => exact later_complainIf (a.body = .program) a keyword .topLevelReturn
  | .result keyword (some value) =>
    let b := if a.body = .program then a.complain keyword .topLevelReturn else a
    have hprogram : Later a b := later_complainIf (a.body = .program) a keyword .topLevelReturn
    have hkeyword := hprogram.trans
      (later_complainIf (b.body = .initializer) b keyword .initializerReturn)
    exact hkeyword.trans (resolveExpr_later value _)
  | .classDecl name methods =>
    have hname := later_introduce { a with inClass := true } name
    have hmethods := resolveMethods_later methods
      (({ a with inClass := true }.introduce name).openScope [(selfName, .defined)])
    exact ⟨hmethods.body.trans hname.body, rfl, hmethods.loops.trans hname.loops,
      Ahead.trans (a := a) hname.ahead hmethods.ahead⟩

theorem resolveStmts_later (ss : List Stmt) (a : Analysis) : Later a (resolveStmts ss a) := by
  match ss with
  | [] => exact .refl a
  | s :: ss => exact (resolveStmt_later s a).trans (resolveStmts_later ss _)

theorem resolveFunction_later (f : FunctionDecl) (body : Body) (a : Analysis) :
    Later a (resolveFunction f body a) := by
  match f with
  | ⟨_, params, statements⟩ =>
    have hparams := later_introduceAll params (a.enterFunction body)
    have hbody := hparams.trans (resolveStmts_later statements _)
    exact ⟨rfl, hbody.inClass, rfl, hbody.ahead⟩

theorem resolveMethods_later (fs : List FunctionDecl) (a : Analysis) :
    Later a (resolveMethods fs a) := by
  match fs with
  | [] => exact .refl a
  | f :: fs => exact (resolveFunction_later f _ a).trans (resolveMethods_later fs _)

end

/-! ### The stack of scopes -/

mutual

theorem scopes_resolveExpr (e : Expr) (a : Analysis) : (resolveExpr e a).scopes = a.scopes := by
  match e with
  | .literal _ => rfl
  | .unary _ operand => exact scopes_resolveExpr operand a
  | .group inner => exact scopes_resolveExpr inner a
  | .binary left _ right => exact (scopes_resolveExpr right _).trans (scopes_resolveExpr left a)
  | .logical left _ right => exact (scopes_resolveExpr right _).trans (scopes_resolveExpr left a)
  | .conditional test yes no =>
    have hyes := (scopes_resolveExpr yes _).trans (scopes_resolveExpr test a)
    exact (scopes_resolveExpr no _).trans hyes
  | .var id name =>
    unfold resolveExpr
    dsimp only
    rw [scopes_record]
    split <;> rfl
  | .assign id name value => exact (scopes_record _ id _).trans (scopes_resolveExpr value a)
  | .call callee _ arguments =>
    exact (scopes_resolveExprs arguments _).trans (scopes_resolveExpr callee a)
  | .lambda decl => exact scopes_resolveFunction decl .function a
  | .array _ elements => exact scopes_resolveExprs elements a
  | .index _ base key => exact (scopes_resolveExpr key _).trans (scopes_resolveExpr base a)
  | .indexSet _ base key value =>
    have hkey := (scopes_resolveExpr key _).trans (scopes_resolveExpr base a)
    exact (scopes_resolveExpr value _).trans hkey
  | .get object _ => exact scopes_resolveExpr object a
  | .set object _ value => exact (scopes_resolveExpr value _).trans (scopes_resolveExpr object a)
  | .self id keyword =>
    unfold resolveExpr
    split
    · exact scopes_record a id selfName
    · rfl

theorem scopes_resolveExprs (es : List Expr) (a : Analysis) :
    (resolveExprs es a).scopes = a.scopes := by
  match es with
  | [] => rfl
  | e :: es => exact (scopes_resolveExprs es _).trans (scopes_resolveExpr e a)

theorem scopes_resolveStmt (s : Stmt) (a : Analysis) :
    (resolveStmt s a).scopes = withNames a.scopes (declared s) := by
  match s with
  | .expression expr => exact (scopes_resolveExpr expr a).trans (withNames_nil _).symm
  | .print expr => exact (scopes_resolveExpr expr a).trans (withNames_nil _).symm
  | .var name none => exact scopes_introduce a name
  | .var name (some value) =>
    unfold resolveStmt
    rw [scopes_define, scopes_resolveExpr, ← scopes_define]
    exact scopes_introduce a name
  | .block body =>
    exact (tail_of_opened (scopes_resolveStmts body (a.openScope []))).trans (withNames_nil _).symm
  | .ifElse test yes none =>
    exact (scopes_resolveStmt yes _).trans (by rw [scopes_resolveExpr, declared])
  | .ifElse test yes (some no) =>
    refine (scopes_resolveStmt no _).trans ?_
    rw [scopes_resolveStmt yes, scopes_resolveExpr, declared, withNames_append]
  | .loop test body none =>
    refine (scopes_resolveStmt body _).trans ?_
    rw [enterLoop, scopes_resolveExpr, declared]
  | .loop test body (some step) =>
    refine (tail_of_opened (scopes_resolveStmt step _)).trans ?_
    refine (scopes_resolveStmt body _).trans ?_
    rw [enterLoop, scopes_resolveExpr, declared]
  | .exitLoop keyword => exact (scopes_requireLoop a keyword _).trans (withNames_nil _).symm
  | .nextIteration keyword => exact (scopes_requireLoop a keyword _).trans (withNames_nil _).symm
  | .function decl =>
    unfold resolveStmt
    rw [scopes_resolveFunction, declared]
    cases decl.name? with
    | none => exact (withNames_nil _).symm
    | some name => exact scopes_introduce a name
  | .result keyword none =>
    unfold resolveStmt
    dsimp only
    refine Eq.trans ?_ (withNames_nil _).symm
    split <;> rfl
  | .result keyword (some value) =>
    unfold resolveStmt
    dsimp only
    refine Eq.trans ?_ (withNames_nil _).symm
    rw [scopes_resolveExpr]
    split <;> split <;> rfl
  | .classDecl name methods =>
    have hmethods := scopes_resolveMethods methods
      (({ a with inClass := true }.introduce name).openScope [(selfName, .defined)])
    have htail := tail_of_opened (hmethods.trans (withNames_nil _).symm)
    exact htail.trans (scopes_introduce { a with inClass := true } name)

theorem scopes_resolveStmts (ss : List Stmt) (a : Analysis) :
    (resolveStmts ss a).scopes = withNames a.scopes (declaredBy ss) := by
  match ss with
  | [] => exact (withNames_nil _).symm
  | s :: ss =>
    refine (scopes_resolveStmts ss _).trans ?_
    rw [scopes_resolveStmt s, ← withNames_append]
    rfl

theorem scopes_resolveFunction (f : FunctionDecl) (body : Body) (a : Analysis) :
    (resolveFunction f body a).scopes = a.scopes := by
  match f with
  | ⟨_, params, statements⟩ =>
    have hinside : (resolveStmts statements (params.foldl introduce (a.enterFunction body))).scopes =
        withNames (a.openScope []).scopes (params ++ declaredBy statements) := by
      rw [scopes_resolveStmts, scopes_introduceAll, withNames_append]
      rfl
    exact tail_of_opened hinside

theorem scopes_resolveMethods (fs : List FunctionDecl) (a : Analysis) :
    (resolveMethods fs a).scopes = a.scopes := by
  match fs with
  | [] => rfl
  | f :: fs => exact (scopes_resolveMethods fs _).trans (scopes_resolveFunction f _ a)

end

end Scope

end Roteiro
