import Roteiro.Machine.Basic
import Roteiro.Proofs.Scope.Analysis
import Roteiro.Proofs.Tree.Functions

/-!
# The signals of a statement

`pare`, `continue` and `retorne` end a statement with a signal, which passes through blocks and
choices up to the loop or the call that takes it. `Passes s flow` says that a signal may come out of
a statement as far as its shape goes. The analysis complains about the keyword of a signal that
nothing would take:

* `Passes.taken`: a signal of a statement without complaints has a loop, or a function, around it.
* `FromAccepted.body`: no function of an accepted program passes on `pare` or `continue`.
-/

namespace Roteiro

namespace Scope

/-- `Passes s flow`: the shape of the statement allows it to end with this signal. -/
inductive Passes : Stmt → Flow → Prop
  | exitLoop {keyword} : Passes (.exitLoop keyword) .exitLoop
  | nextIteration {keyword} : Passes (.nextIteration keyword) .nextIteration
  | result {keyword value? v} : Passes (.result keyword value?) (.result v)
  | block {body s flow} (hs : s ∈ body) (h : Passes s flow) : Passes (.block body) flow
  | yes {test yes no? flow} (h : Passes yes flow) : Passes (.ifElse test yes no?) flow
  | no {test yes no flow} (h : Passes no flow) : Passes (.ifElse test yes (some no)) flow
  | loop {test body step v} (h : Passes body (.result v)) :
    Passes (.loop test body step) (.result v)

/-- Something around the place of an analysis takes the signal: a loop, or a function. -/
def Analysis.Takes (a : Analysis) : Flow → Prop
  | .normal => True
  | .exitLoop => a.loops ≠ 0
  | .nextIteration => a.loops ≠ 0
  | .result _ => a.body ≠ .program

open Analysis

theorem Analysis.Later.takes {a a' : Analysis} (h : Later a a') {flow : Flow}
    (htakes : a'.Takes flow) : a.Takes flow := by
  cases flow with
  | normal => trivial
  | exitLoop | nextIteration =>
    intro hloops
    exact htakes (h.loops.trans hloops)
  | result v =>
    intro hbody
    exact htakes (h.body.trans hbody)

/-- A complaint is not silent. -/
theorem complain_reports_ne (a : Analysis) (t : Token) (cause : Cause) :
    (a.complain t cause).reports ≠ #[] := by
  simp [complain]

theorem requireLoop_silent {a : Analysis} {keyword : Token} {cause : Cause}
    (h : (a.requireLoop keyword cause).reports = #[]) : a.loops ≠ 0 := by
  unfold requireLoop at h
  split at h
  · exact absurd h (complain_reports_ne a keyword cause)
  · assumption

/-- Each of several statements without complaints was looked at without complaints, at the same
place. -/
theorem silent_of_mem {ss : List Stmt} {s : Stmt} (hs : s ∈ ss) {a : Analysis}
    (h : (resolveStmts ss a).reports = #[]) :
    ∃ a', Later a a' ∧ (resolveStmt s a').reports = #[] := by
  induction ss generalizing a with
  | nil => cases hs
  | cons t ss ih =>
    have hfirst := (resolveStmts_later ss (resolveStmt t a)).ahead.silent h
    rcases List.mem_cons.mp hs with rfl | hs
    · exact ⟨a, .refl a, hfirst⟩
    · obtain ⟨a', hlater, hsilent⟩ := ih hs h
      exact ⟨a', (resolveStmt_later t a).trans hlater, hsilent⟩

/-- **Signals have a taker.** If there is no complaint about a statement, then a loop or a function
around it takes what comes out of it. -/
theorem Passes.taken {s : Stmt} {flow : Flow} (hpasses : Passes s flow) {a : Analysis}
    (h : (resolveStmt s a).reports = #[]) : a.Takes flow := by
  induction hpasses generalizing a with
  | exitLoop => exact requireLoop_silent h
  | nextIteration => exact requireLoop_silent h
  | @result keyword value? v =>
    intro hbody
    have hkeyword : ((if a.body = .program then a.complain keyword .topLevelReturn
        else a : Analysis)).reports = #[] := by
      cases value? with
      | none => exact h
      | some value =>
        have hvalue := (resolveExpr_later value _).ahead.silent h
        exact (later_complainIf _ _ keyword .initializerReturn).ahead.silent hvalue
    rw [if_pos hbody] at hkeyword
    exact complain_reports_ne a keyword _ hkeyword
  | block hs hpasses ih =>
    obtain ⟨a', hlater, hsilent⟩ := silent_of_mem hs h
    exact hlater.takes (ih hsilent)
  | @yes test yes no? flow hpasses ih =>
    have hyes : (resolveStmt yes (resolveExpr test a)).reports = #[] := by
      cases no? with
      | none => exact h
      | some no => exact (resolveStmt_later no _).ahead.silent h
    exact (resolveExpr_later test a).takes (ih hyes)
  | @no test yes no flow hpasses ih =>
    have hlater := (resolveExpr_later test a).trans (resolveStmt_later yes _)
    exact hlater.takes (ih h)
  | @loop test body step v hpasses ih =>
    have hbody : (resolveStmt body (resolveExpr test a).enterLoop).reports = #[] := by
      cases step with
      | none => exact h
      | some step =>
        let b := (resolveStmt body (resolveExpr test a).enterLoop).leaveLoop
        exact (resolveStmt_later step (b.openScope [])).ahead.silent h
    have htakes : (resolveExpr test a).enterLoop.Takes (.result v) := ih hbody
    exact (resolveExpr_later test a).takes htakes

theorem silent_of_accepted {program : List Stmt} {depths : Depths}
    (h : (resolve program depths).accepted) : (resolve program depths).reports = #[] := by
  simpa [Analysis.accepted] using h

/-- No signal comes out of a statement of an accepted program. -/
theorem Passes.not_mem_accepted {program : List Stmt} {depths : Depths}
    (haccepted : (resolve program depths).accepted) {s : Stmt} (hs : s ∈ program) {flow : Flow}
    (h : Passes s flow) : flow = .normal := by
  obtain ⟨a, hlater, hs⟩ := silent_of_mem hs (silent_of_accepted haccepted)
  have htakes := hlater.takes (h.taken hs)
  cases flow with
  | normal => rfl
  | exitLoop => exact absurd rfl htakes
  | nextIteration => exact absurd rfl htakes
  | result v => exact absurd rfl htakes

/-! ### The functions of an accepted program -/

/-- `Checked f`: the body of the function was looked at outside of all loops, and there was no
complaint about it. -/
def Checked (f : FunctionDecl) : Prop :=
  ∃ a : Analysis, a.loops = 0 ∧ (resolveStmts f.body a).reports = #[]

mutual

theorem checked_of_expr (e : Expr) {a : Analysis} (h : (resolveExpr e a).reports = #[]) :
    ∀ f ∈ e.functions, Checked f := by
  match e with
  | .literal _ | .var _ _ | .self _ _ => exact fun f hf => by cases hf
  | .unary _ operand => exact checked_of_expr operand h
  | .group inner => exact checked_of_expr inner h
  | .binary left _ right =>
    have hleft := (resolveExpr_later right _).ahead.silent h
    exact List.forall_mem_append.mpr ⟨checked_of_expr left hleft, checked_of_expr right h⟩
  | .logical left _ right =>
    have hleft := (resolveExpr_later right _).ahead.silent h
    exact List.forall_mem_append.mpr ⟨checked_of_expr left hleft, checked_of_expr right h⟩
  | .conditional test yes no =>
    have hyes := (resolveExpr_later no _).ahead.silent h
    have htest := (resolveExpr_later yes _).ahead.silent hyes
    exact List.forall_mem_append.mpr ⟨checked_of_expr test htest,
      List.forall_mem_append.mpr ⟨checked_of_expr yes hyes, checked_of_expr no h⟩⟩
  | .assign id name value => exact checked_of_expr value ((later_record _ id _).ahead.silent h)
  | .call callee _ arguments =>
    have hcallee := (resolveExprs_later arguments _).ahead.silent h
    exact List.forall_mem_append.mpr ⟨checked_of_expr callee hcallee, checked_of_exprs arguments h⟩
  | .lambda decl => exact checked_of_function decl h
  | .array _ elements => exact checked_of_exprs elements h
  | .index _ base key =>
    have hbase := (resolveExpr_later key _).ahead.silent h
    exact List.forall_mem_append.mpr ⟨checked_of_expr base hbase, checked_of_expr key h⟩
  | .indexSet _ base key value =>
    have hkey := (resolveExpr_later value _).ahead.silent h
    have hbase := (resolveExpr_later key _).ahead.silent hkey
    exact List.forall_mem_append.mpr ⟨checked_of_expr base hbase,
      List.forall_mem_append.mpr ⟨checked_of_expr key hkey, checked_of_expr value h⟩⟩
  | .get object _ => exact checked_of_expr object h
  | .set object _ value =>
    have hobject := (resolveExpr_later value _).ahead.silent h
    exact List.forall_mem_append.mpr ⟨checked_of_expr object hobject, checked_of_expr value h⟩

theorem checked_of_exprs (es : List Expr) {a : Analysis} (h : (resolveExprs es a).reports = #[]) :
    ∀ f ∈ functionsOfExprs es, Checked f := by
  match es with
  | [] => exact fun f hf => by cases hf
  | e :: es =>
    have he := (resolveExprs_later es _).ahead.silent h
    exact List.forall_mem_append.mpr ⟨checked_of_expr e he, checked_of_exprs es h⟩

theorem checked_of_stmt (s : Stmt) {a : Analysis} (h : (resolveStmt s a).reports = #[]) :
    ∀ f ∈ s.functions, Checked f := by
  match s with
  | .var _ none | .exitLoop _ | .nextIteration _ | .result _ none => exact fun f hf => by cases hf
  | .expression expr => exact checked_of_expr expr h
  | .print expr => exact checked_of_expr expr h
  | .var name (some value) => exact checked_of_expr value ((later_define _ name).ahead.silent h)
  | .block body => exact checked_of_stmts body h
  | .ifElse test yes none =>
    have htest := (resolveStmt_later yes _).ahead.silent h
    exact List.forall_mem_append.mpr ⟨checked_of_expr test htest, checked_of_stmt yes h⟩
  | .ifElse test yes (some no) =>
    have hyes := (resolveStmt_later no _).ahead.silent h
    have htest := (resolveStmt_later yes _).ahead.silent hyes
    exact List.forall_mem_append.mpr ⟨checked_of_expr test htest,
      List.forall_mem_append.mpr ⟨checked_of_stmt yes hyes, checked_of_stmt no h⟩⟩
  | .loop test body none =>
    have htest := (resolveStmt_later body (resolveExpr test a).enterLoop).ahead.silent h
    exact List.forall_mem_append.mpr ⟨checked_of_expr test htest, checked_of_stmt body h⟩
  | .loop test body (some step) =>
    let b := (resolveStmt body (resolveExpr test a).enterLoop).leaveLoop
    have hbody : b.reports = #[] := (resolveStmt_later step (b.openScope [])).ahead.silent h
    have htest := (resolveStmt_later body (resolveExpr test a).enterLoop).ahead.silent hbody
    exact List.forall_mem_append.mpr ⟨checked_of_expr test htest,
      List.forall_mem_append.mpr ⟨checked_of_stmt body hbody, checked_of_stmt step h⟩⟩
  | .function decl => exact checked_of_function decl h
  | .result keyword (some value) => exact checked_of_expr value h
  | .classDecl _ methods => exact checked_of_methods methods h

theorem checked_of_stmts (ss : List Stmt) {a : Analysis} (h : (resolveStmts ss a).reports = #[]) :
    ∀ f ∈ functionsOfStmts ss, Checked f := by
  match ss with
  | [] => exact fun f hf => by cases hf
  | s :: ss =>
    have hs := (resolveStmts_later ss _).ahead.silent h
    exact List.forall_mem_append.mpr ⟨checked_of_stmt s hs, checked_of_stmts ss h⟩

theorem checked_of_function (f : FunctionDecl) {body : Body} {a : Analysis}
    (h : (resolveFunction f body a).reports = #[]) : ∀ g ∈ f.functions, Checked g := by
  match f with
  | ⟨name?, params, statements⟩ =>
    have hbody : (resolveStmts statements
        (params.foldl introduce (a.enterFunction body))).reports = #[] := h
    rw [FunctionDecl.functions]
    refine List.forall_mem_cons.mpr ⟨⟨_, ?_, hbody⟩, checked_of_stmts statements hbody⟩
    exact (later_introduceAll params (a.enterFunction body)).loops

theorem checked_of_methods (fs : List FunctionDecl) {a : Analysis}
    (h : (resolveMethods fs a).reports = #[]) : ∀ f ∈ functionsOfMethods fs, Checked f := by
  match fs with
  | [] => exact fun f hf => by cases hf
  | f :: fs =>
    have hf := (resolveMethods_later fs _).ahead.silent h
    exact List.forall_mem_append.mpr ⟨checked_of_function f hf, checked_of_methods fs h⟩

end

/-- `FromAccepted f`: the function is written in a program that there is no complaint about. -/
def FromAccepted (f : FunctionDecl) : Prop :=
  ∃ program depths, (resolve program depths).accepted ∧ f ∈ functionsOfStmts program

/-- The functions inside of a function come from the same program. -/
theorem FromAccepted.inside {f g : FunctionDecl} (h : FromAccepted f) (hg : g ∈ f.functions) :
    FromAccepted g := by
  obtain ⟨program, depths, haccepted, hf⟩ := h
  exact ⟨program, depths, haccepted, functionsOfStmts_closed program f hf hg⟩

/-- What comes out of a function of an accepted program is no signal for a loop. -/
theorem FromAccepted.body {f : FunctionDecl} (h : FromAccepted f) {s : Stmt} (hs : s ∈ f.body)
    {flow : Flow} (hpasses : Passes s flow) : flow ≠ .exitLoop ∧ flow ≠ .nextIteration := by
  obtain ⟨program, depths, haccepted, hf⟩ := h
  obtain ⟨a, hloops, hsilent⟩ := checked_of_stmts program (silent_of_accepted haccepted) f hf
  obtain ⟨a', hlater, hsilent'⟩ := silent_of_mem hs hsilent
  have htakes := hlater.takes (hpasses.taken hsilent')
  constructor
  · rintro rfl
    exact htakes hloops
  · rintro rfl
    exact htakes hloops

end Scope

end Roteiro
