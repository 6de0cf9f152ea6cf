import Roteiro.Proofs.Scope.Recorded
import Roteiro.Proofs.Tree.Orderly

/-!
# One depth for each number

The step of a counted loop is there twice, and so are the loops in the lambdas in it. The analysis
passes over each copy, at different times and with different scopes on its stack, and writes what it
finds under the same numbers. Nothing is lost by that: `visits` lists what the analysis finds, in
the order in which it comes by, and in a program that the parser accepts all that is found under one
number is the same. The body of a loop binds nothing in the block around it, so the copy at the end
of the block and the copy beside the loop have the same names around them, at the same distances.

* `depths_resolve`: the table is what the visits note in it.
* `visits_loop`: both copies of a step are passed over at the same place.
* `looks_of_parsed`: visits with one number are the same, in a program that the parser accepts.
-/

namespace Roteiro

namespace Scope

/-- The analysis comes by an occurrence of a name, and finds how many scopes lie between it and the
nearest one that declares the name, if there is one. -/
structure Visit where
  id : Nat
  depth? : Option Nat
  deriving DecidableEq, Repr

/-- What a visit leaves in the table. -/
def Visit.note (depths : Depths) (v : Visit) : Depths := noted depths v.id v.depth?

/-- What decides on the depths that are found: the stack of scopes, and whether there is a
receiver. -/
structure Place where
  scopes : List (Bindings Stage)
  inClass : Bool

/-- The place of an analysis. -/
def Analysis.place (a : Analysis) : Place := ⟨a.scopes, a.inClass⟩

namespace Place

/-- The place behind the declarations of some names. -/
def after (p : Place) (names : List Token) : Place := { p with scopes := withNames p.scopes names }

/-- The place inside of a scope. -/
def inside (p : Place) (scope : Bindings Stage) : Place := { p with scopes := scope :: p.scopes }

/-- The place of an initializer. -/
def initializing (p : Place) (name : Token) : Place :=
  { p with
    scopes :=
      match p.scopes with
      | [] => []
      | scope :: outer =>
        (if scope.binds name.lexeme then scope else scope.insert name.lexeme .declared) :: outer }

/-- The place of the methods of a class. -/
def methods (p : Place) (name : Token) : Place :=
  Place.inside ⟨withNames p.scopes [name], true⟩ [(selfName, .defined)]

/-- The place of the body of a function. -/
def body (p : Place) (params : List Token) : Place := (p.inside []).after params

/-- What is found about an occurrence of a name. -/
def visit (p : Place) (id : Nat) (name : String) : Visit :=
  ⟨id, p.scopes.findIdx? fun scope => scope.binds name⟩

@[simp] theorem after_nil (p : Place) : p.after [] = p := by
  rw [after, withNames_nil]

end Place

end Scope

open Scope

mutual

/-- What the analysis finds in an expression, in the order in which it comes by. -/
def Expr.visits : Expr → Place → List Visit
  | .literal _, _ => []
  | .unary _ operand, p => operand.visits p
  | .binary left _ right, p => left.visits p ++ right.visits p
  | .group inner, p => inner.visits p
  | .logical left _ right, p => left.visits p ++ right.visits p
  | .conditional test yes no, p => test.visits p ++ (yes.visits p ++ no.visits p)
  | .var id name, p => [p.visit id name.lexeme]
  | .assign id name value, p => value.visits p ++ [p.visit id name.lexeme]
  | .call callee _ arguments, p => callee.visits p ++ visitsOfExprs arguments p
  | .lambda decl, p => decl.visits p
  | .array _ elements, p => visitsOfExprs elements p
  | .index _ base key, p => base.visits p ++ key.visits p
  | .indexSet _ base key value, p => base.visits p ++ (key.visits p ++ value.visits p)
  | .get object _, p => object.visits p
  | .set object _ value, p => object.visits p ++ value.visits p
  | .self id _, p => [if p.inClass then p.visit id selfName else ⟨id, none⟩]

/-- What the analysis finds in several expressions. -/
def visitsOfExprs : List Expr → Place → List Visit
  | [], _ => []
  | e :: es, p => e.visits p ++ visitsOfExprs es p

/-- What the analysis finds in a statement. Both copies of a step are passed over. -/
def Stmt.visits : Stmt → Place → List Visit
  | .expression expr, p => expr.visits p
  | .print expr, p => expr.visits p
  | .var _ none, _ => []
  | .var name (some value), p => value.visits (p.initializing name)
  | .block body, p => visitsOfStmts body (p.inside [])
  | .ifElse test yes none, p => test.visits p ++ yes.visits p
  | .ifElse test yes (some no), p =>
    test.visits p ++ (yes.visits p ++ no.visits (p.after (declared yes)))
  | .loop test body none, p => test.visits p ++ body.visits p
  | .loop test body (some step), p =>
    test.visits p ++ (body.visits p ++ step.visits ((p.after (declared body)).inside []))
  | .exitLoop _, _ => []
  | .nextIteration _, _ => []
  | .function decl, p => decl.visits (p.after decl.name?.toList)
  | .result _ none, _ => []
  | .result _ (some value), p => value.visits p
  | .classDecl name methods, p => visitsOfFunctions methods (p.methods name)

/-- What the analysis finds in several statements. -/
def visitsOfStmts : List Stmt → Place → List Visit
  | [], _ => []
  | s :: ss, p => s.visits p ++ visitsOfStmts ss (p.after (declared s))

/-- What the analysis finds in a function. -/
def FunctionDecl.visits : FunctionDecl → Place → List Visit
  | ⟨_, params, body⟩, p => visitsOfStmts body (p.body params)

/-- What the analysis finds in several functions. -/
def visitsOfFunctions : List FunctionDecl → Place → List Visit
  | [], _ => []
  | f :: fs, p => f.visits p ++ visitsOfFunctions fs p

end

namespace Scope

/-- What the analysis of a program finds. -/
def visits (program : List Stmt) : List Visit := visitsOfStmts program ⟨[], false⟩

open Analysis

/-! ### The table -/

theorem depths_recorded (a : Analysis) (id : Nat) (name : String) :
    (a.record id name).depths = (a.place.visit id name).note a.depths := depths_record a id name

theorem place_resolveExpr (e : Expr) (a : Analysis) : (resolveExpr e a).place = a.place := by
  rw [place, place, scopes_resolveExpr, (resolveExpr_later e a).inClass]

theorem place_resolveStmt (s : Stmt) (a : Analysis) :
    (resolveStmt s a).place = a.place.after (declared s) := by
  rw [place, scopes_resolveStmt, (resolveStmt_later s a).inClass]
  rfl

theorem place_resolveFunction (f : FunctionDecl) (body : Body) (a : Analysis) :
    (resolveFunction f body a).place = a.place := by
  rw [place, place, scopes_resolveFunction, (resolveFunction_later f body a).inClass]

theorem place_introduceAll (names : List Token) (a : Analysis) :
    (names.foldl introduce a).place = a.place.after names := by
  rw [place, scopes_introduceAll, (later_introduceAll names a).inClass]
  rfl

theorem place_introduce (a : Analysis) (name : Token) :
    (a.introduce name).place = a.place.after [name] :=
  place_introduceAll [name] a

theorem place_methods (a : Analysis) (name : Token) :
    (({ a with inClass := true }.introduce name).openScope [(selfName, .defined)]).place =
      a.place.methods name :=
  congrArg (Place.inside · [(selfName, .defined)]) (place_introduce { a with inClass := true } name)

theorem place_declare (a : Analysis) (name : Token) :
    (a.declare name).place = a.place.initializing name := by
  obtain ⟨scopes, body, inClass, loops, depths, reports⟩ := a
  unfold declare Place.initializing place
  cases scopes with
  | nil => rfl
  | cons scope outer =>
    dsimp only
    split <;> rfl

theorem place_complainIf (p : Prop) [Decidable p] (a : Analysis) (t : Token) (cause : Cause) :
    (if p then a.complain t cause else a).place = a.place := by
  split <;> rfl

theorem depths_complainIf (p : Prop) [Decidable p] (a : Analysis) (t : Token) (cause : Cause) :
    (if p then a.complain t cause else a).depths = a.depths := by
  split <;> rfl

/-- One piece of the tree is passed over behind another one. -/
theorem noted_append {a b c : Analysis} {vs ws : List Visit}
    (h : b.depths = vs.foldl Visit.note a.depths)
    (h' : c.depths = ws.foldl Visit.note b.depths) :
    c.depths = (vs ++ ws).foldl Visit.note a.depths := by
  rw [List.foldl_append, ← h, h']

mutual

theorem depths_resolveExpr (e : Expr) (a : Analysis) :
    (resolveExpr e a).depths = (e.visits a.place).foldl Visit.note a.depths := by
  match e with
  | .literal _ => rfl
  | .unary _ operand => exact depths_resolveExpr operand a
  | .group inner => exact depths_resolveExpr inner a
  | .binary left _ right | .logical left _ right =>
    refine noted_append (depths_resolveExpr left a) ?_
    rw [← place_resolveExpr left a]
    exact depths_resolveExpr right _
  | .conditional test yes no =>
    refine noted_append (depths_resolveExpr test a) ?_
    rw [← place_resolveExpr test a]
    refine noted_append (depths_resolveExpr yes _) ?_
    rw [← place_resolveExpr yes]
    exact depths_resolveExpr no _
  | .var id name =>
    unfold resolveExpr
    dsimp only
    rw [depths_recorded, place_complainIf, depths_complainIf]
    rfl
  | .assign id name value =>
    refine noted_append (depths_resolveExpr value a) ?_
    rw [← place_resolveExpr value a]
    exact depths_recorded _ id name.lexeme
  | .call callee _ arguments =>
    refine noted_append (depths_resolveExpr callee a) ?_
    rw [← place_resolveExpr callee a]
    exact depths_resolveExprs arguments _
  | .lambda decl => exact depths_resolveFunction decl .function a
  | .array _ elements => exact depths_resolveExprs elements a
  | .index _ base key =>
    refine noted_append (depths_resolveExpr base a) ?_
    rw [← place_resolveExpr base a]
    exact depths_resolveExpr key _
  | .indexSet _ base key value =>
    refine noted_append (depths_resolveExpr base a) ?_
    rw [← place_resolveExpr base a]
    refine noted_append (depths_resolveExpr key _) ?_
    rw [← place_resolveExpr key]
    exact depths_resolveExpr value _
  | .get object _ => exact depths_resolveExpr object a
  | .set object _ value =>
    refine noted_append (depths_resolveExpr object a) ?_
    rw [← place_resolveExpr object a]
    exact depths_resolveExpr value _
  | .self id keyword =>
    unfold resolveExpr Expr.visits
    have hclass : a.place.inClass = a.inClass := rfl
    rw [hclass]
    split
    · exact depths_recorded a id selfName
    · rfl

theorem depths_resolveExprs (es : List Expr) (a : Analysis) :
    (resolveExprs es a).depths = (visitsOfExprs es a.place).foldl Visit.note a.depths := by
  match es with
  | [] => rfl
  | e :: es =>
    refine noted_append (depths_resolveExpr e a) ?_
    rw [← place_resolveExpr e a]
    exact depths_resolveExprs es _

theorem depths_resolveStmt (s : Stmt) (a : Analysis) :
    (resolveStmt s a).depths = (s.visits a.place).foldl Visit.note a.depths := by
  match s with
  | .expression expr => exact depths_resolveExpr expr a
  | .print expr => exact depths_resolveExpr expr a
  | .var name none => exact depths_introduce a name
  | .var name (some value) =>
    unfold resolveStmt Stmt.visits
    rw [depths_define, depths_resolveExpr value, place_declare, depths_declare]
  | .block body => exact depths_resolveStmts body (a.openScope [])
  | .ifElse test yes none =>
    refine noted_append (depths_resolveExpr test a) ?_
    rw [← place_resolveExpr test a]
    exact depths_resolveStmt yes _
  | .ifElse test yes (some no) =>
    refine noted_append (depths_resolveExpr test a) ?_
    rw [← place_resolveExpr test a]
    refine noted_append (depths_resolveStmt yes _) ?_
    rw [← place_resolveStmt yes]
    exact depths_resolveStmt no _
  | .loop test body none =>
    refine noted_append (depths_resolveExpr test a) ?_
    rw [← place_resolveExpr test a]
    exact depths_resolveStmt body (enterLoop _)
  | .loop test body (some step) =>
    refine noted_append (depths_resolveExpr test a) ?_
    rw [← place_resolveExpr test a]
    -- the copy beside the loop is looked at behind the body, and outside of the loop
    let b := (resolveExpr test a).enterLoop
    refine noted_append (b := (resolveStmt body b).leaveLoop) (depths_resolveStmt body b) ?_
    have hplace : (resolveStmt body b).leaveLoop.place =
        (resolveExpr test a).place.after (declared body) := place_resolveStmt body b
    rw [← hplace]
    exact depths_resolveStmt step (openScope _ [])
  | .exitLoop keyword => exact depths_requireLoop a keyword _
  | .nextIteration keyword => exact depths_requireLoop a keyword _
  | .function decl =>
    unfold resolveStmt Stmt.visits
    cases decl.name? with
    | none =>
      rw [Option.toList_none, Place.after_nil]
      exact depths_resolveFunction decl .function a
    | some name =>
      dsimp only
      rw [depths_resolveFunction decl, depths_introduce]
      rw [place_introduce]
      rfl
  | .result keyword none => exact depths_complainIf (a.body = .program) a keyword _
  | .result keyword (some value) =>
    unfold resolveStmt Stmt.visits
    dsimp only
    rw [depths_resolveExpr value, place_complainIf, place_complainIf, depths_complainIf,
      depths_complainIf]
  | .classDecl name methods =>
    let b := ({ a with inClass := true }.introduce name).openScope [(selfName, .defined)]
    have hplace : b.place = a.place.methods name := place_methods a name
    have hdepths : b.depths = a.depths := depths_introduce { a with inClass := true } name
    have hmethods := depths_resolveMethods methods b
    rw [hplace, hdepths] at hmethods
    exact hmethods

theorem depths_resolveStmts (ss : List Stmt) (a : Analysis) :
    (resolveStmts ss a).depths = (visitsOfStmts ss a.place).foldl Visit.note a.depths := by
  match ss with
  | [] => rfl
  | s :: ss =>
    refine noted_append (depths_resolveStmt s a) ?_
    rw [← place_resolveStmt s a]
    exact depths_resolveStmts ss _

theorem depths_resolveFunction (f : FunctionDecl) (body : Body) (a : Analysis) :
    (resolveFunction f body a).depths = (f.visits a.place).foldl Visit.note a.depths := by
  match f with
  | ⟨_, params, statements⟩ =>
    have hstatements :=
      depths_resolveStmts statements (params.foldl introduce (a.enterFunction body))
    rw [place_introduceAll, depths_introduceAll] at hstatements
    exact hstatements

theorem depths_resolveMethods (fs : List FunctionDecl) (a : Analysis) :
    (resolveMethods fs a).depths = (visitsOfFunctions fs a.place).foldl Visit.note a.depths := by
  match fs with
  | [] => rfl
  | f :: fs =>
    refine noted_append (depths_resolveFunction f (methodBody f) a) ?_
    rw [← place_resolveFunction f (methodBody f) a]
    exact depths_resolveMethods fs _

end

/-! ### Visits with one number -/

/-- The visits are those of occurrences with the numbers `ids`. If no number is there twice, then
all visits with one number have found the same. -/
structure Looks (ids : List Nat) (vs : List Visit) : Prop where
  visited : ∀ id, id ∈ ids ↔ ∃ v ∈ vs, v.id = id
  same : ids.Nodup → ∀ v ∈ vs, ∀ v' ∈ vs, v.id = v'.id → v = v'

namespace Looks

variable {ids ids' : List Nat} {vs ws : List Visit}

theorem nil : Looks [] [] := ⟨by simp, by simp⟩

theorem single (v : Visit) : Looks [v.id] [v] := ⟨by simp [eq_comm], by simp⟩

theorem append (h : Looks ids vs) (h' : Looks ids' ws) : Looks (ids ++ ids') (vs ++ ws) := by
  refine ⟨fun id => ?_, fun hnodup => ?_⟩
  · simp only [List.mem_append, h.visited, h'.visited, or_and_right, exists_or]
  · obtain ⟨hids, hids', hdisjoint⟩ := List.nodup_append.mp hnodup
    -- no number is looked for on both sides
    have hapart : ∀ v ∈ vs, ∀ w ∈ ws, v.id ≠ w.id := fun v hv w hw =>
      hdisjoint _ ((h.visited _).mpr ⟨v, hv, rfl⟩) _ ((h'.visited _).mpr ⟨w, hw, rfl⟩)
    intro v hv v' hv' heq
    rcases List.mem_append.mp hv with hv | hv <;> rcases List.mem_append.mp hv' with hv' | hv'
    · exact h.same hids v hv v' hv' heq
    · exact absurd heq (hapart v hv v' hv')
    · exact absurd heq.symm (hapart v' hv' v hv)
    · exact h'.same hids' v hv v' hv' heq

/-- Neither the order matters nor whether something is passed over once more. -/
theorem congr (h : Looks ids vs) (hids : ids'.Perm ids) (hvs : ∀ v, v ∈ ws ↔ v ∈ vs) :
    Looks ids' ws := by
  refine ⟨fun id => ?_, fun hnodup v hv v' hv' => ?_⟩
  · simp only [hids.mem_iff, h.visited, hvs]
  · exact h.same (hids.nodup_iff.mp hnodup) v ((hvs v).mp hv) v' ((hvs v').mp hv')

end Looks

/-- The visits of what a loop with a step repeats. -/
theorem visits_repeated (e : Expr) {b : Stmt} (hb : b.BindsNothing) (p : Place) :
    (Stmt.block [b, .expression e]).visits p =
      b.visits (p.inside []) ++ e.visits (p.inside []) := by
  simp [Stmt.visits, visitsOfStmts, declared_of_bindsNothing b hb]

/-- **Both copies of a step are passed over at the same place**: inside of one more scope than the
loop, in which nothing is bound. -/
theorem visits_loop (test e : Expr) {b : Stmt} (hb : b.BindsNothing) (p : Place) :
    (Stmt.loop test (.block [b, .expression e]) (some (.expression e))).visits p =
      test.visits p ++ (b.visits (p.inside []) ++ e.visits (p.inside []) ++
        e.visits (p.inside [])) := by
  have hbeside : (Stmt.expression e).visits
      ((p.after (declared (.block [b, .expression e]))).inside []) = e.visits (p.inside []) := by
    show e.visits ((p.after []).inside []) = _
    rw [Place.after_nil]
  rw [← visits_repeated e hb p, ← hbeside]
  rfl

end Scope

open Scope

mutual

theorem Expr.looks (e : Expr) (h : e.Orderly) (p : Place) : Looks e.ids (e.visits p) := by
  have hparts := (Node.orderly_iff.mp h).2
  match e with
  | .literal _ => exact .nil
  | .unary _ operand => exact operand.looks (by simpa using hparts) p
  | .group inner => exact inner.looks (by simpa using hparts) p
  | .binary left _ right | .logical left _ right =>
    obtain ⟨hleft, hright⟩ : left.Orderly ∧ right.Orderly := by simpa using hparts
    exact (left.looks hleft p).append (right.looks hright p)
  | .conditional test yes no =>
    obtain ⟨htest, hyes, hno⟩ : test.Orderly ∧ yes.Orderly ∧ no.Orderly := by simpa using hparts
    exact (test.looks htest p).append ((yes.looks hyes p).append (no.looks hno p))
  | .var id name => exact .single (p.visit id name.lexeme)
  | .assign id name value =>
    have hvalue := value.looks (by simpa using hparts) p
    exact (hvalue.append (.single (p.visit id name.lexeme))).congr
      (List.perm_append_singleton id value.ids).symm fun v => Iff.rfl
  | .call callee _ arguments =>
    obtain ⟨hcallee, harguments⟩ : callee.Orderly ∧ ∀ e ∈ arguments, e.Orderly := by
      simpa using hparts
    exact (callee.looks hcallee p).append (looksExprs arguments harguments p)
  | .lambda decl => exact decl.looks (by simpa using hparts) p
  | .array _ elements => exact looksExprs elements (by simpa using hparts) p
  | .index _ base key =>
    obtain ⟨hbase, hkey⟩ : base.Orderly ∧ key.Orderly := by simpa using hparts
    exact (base.looks hbase p).append (key.looks hkey p)
  | .indexSet _ base key value =>
    obtain ⟨hbase, hkey, hvalue⟩ : base.Orderly ∧ key.Orderly ∧ value.Orderly := by
      simpa using hparts
    exact (base.looks hbase p).append ((key.looks hkey p).append (value.looks hvalue p))
  | .get object _ => exact object.looks (by simpa using hparts) p
  | .set object _ value =>
    obtain ⟨hobject, hvalue⟩ : object.Orderly ∧ value.Orderly := by simpa using hparts
    exact (object.looks hobject p).append (value.looks hvalue p)
  | .self id _ =>
    unfold Expr.visits
    split
    · exact .single (p.visit id selfName)
    · exact .single ⟨id, none⟩

theorem looksExprs (es : List Expr) (h : ∀ e ∈ es, e.Orderly) (p : Place) :
    Looks (idsOfExprs es) (visitsOfExprs es p) := by
  match es with
  | [] => exact .nil
  | e :: es =>
    obtain ⟨he, hes⟩ := List.forall_mem_cons.mp h
    exact (e.looks he p).append (looksExprs es hes p)

theorem Stmt.looks (s : Stmt) (h : s.Orderly) (p : Place) : Looks s.ids (s.visits p) := by
  obtain ⟨hregular, hparts⟩ := Node.orderly_iff.mp h
  match s with
  | .expression expr => exact expr.looks (by simpa using hparts) p
  | .print expr => exact expr.looks (by simpa using hparts) p
  | .var _ none => exact .nil
  | .var name (some value) => exact value.looks (by simpa using hparts) _
  | .block body => exact looksStmts body (by simpa using hparts) _
  | .ifElse test yes none =>
    obtain ⟨htest, hyes⟩ : test.Orderly ∧ yes.Orderly := by simpa using hparts
    exact (test.looks htest p).append (yes.looks hyes p)
  | .ifElse test yes (some no) =>
    obtain ⟨htest, hyes, hno⟩ : test.Orderly ∧ yes.Orderly ∧ no.Orderly := by simpa using hparts
    exact (test.looks htest p).append ((yes.looks hyes p).append (no.looks hno _))
  | .loop test body none =>
    obtain ⟨htest, hbody⟩ : test.Orderly ∧ body.Orderly := by simpa using hparts
    exact (test.looks htest p).append (body.looks hbody p)
  | .loop test body (some step) =>
    obtain ⟨htest, hbody, hstep⟩ : test.Orderly ∧ body.Orderly ∧ step.Orderly := by
      simpa using hparts
    -- the copy beside the loop adds nothing to what the body has been looked at for
    have hboth := (test.looks htest p).append (body.looks hbody p)
    obtain ⟨b, e, rfl, rfl, hb⟩ := hregular
    refine hboth.congr ?_ fun v => ?_
    · simpa using List.perm_append_comm.append_left test.ids
    · rw [visits_loop test e hb p, visits_repeated e hb p]
      simp only [List.mem_append, or_assoc, or_self]
  | .exitLoop _ => exact .nil
  | .nextIteration _ => exact .nil
  | .function decl => exact decl.looks (by simpa using hparts) _
  | .result _ none => exact .nil
  | .result _ (some value) => exact value.looks (by simpa using hparts) p
  | .classDecl name methods =>
    refine looksFunctions methods (fun f hf s hs => ?_) _
    exact hparts _ (List.mem_flatMap.mpr ⟨f, hf, List.mem_map_of_mem hs⟩)

theorem looksStmts (ss : List Stmt) (h : ∀ s ∈ ss, s.Orderly) (p : Place) :
    Looks (idsOfStmts ss) (visitsOfStmts ss p) := by
  match ss with
  | [] => exact .nil
  | s :: ss =>
    obtain ⟨hs, hss⟩ := List.forall_mem_cons.mp h
    exact (s.looks hs p).append (looksStmts ss hss _)

theorem FunctionDecl.looks (f : FunctionDecl) (h : f.Orderly) (p : Place) :
    Looks f.ids (f.visits p) := by
  match f with
  | ⟨_, params, body⟩ => exact looksStmts body h _

theorem looksFunctions (fs : List FunctionDecl) (h : ∀ f ∈ fs, f.Orderly) (p : Place) :
    Looks (idsOfFunctions fs) (visitsOfFunctions fs p) := by
  match fs with
  | [] => exact .nil
  | f :: fs =>
    obtain ⟨hf, hfs⟩ := List.forall_mem_cons.mp h
    exact (f.looks hf p).append (looksFunctions fs hfs p)

end

/-! ### The table of a program -/

namespace Scope

/-- What the table holds about a number when all that is found under it is the same. -/
theorem getElem?_foldl_note {vs : List Visit} {v : Visit}
    (hsame : ∀ w ∈ vs, w.id = v.id → w = v) (T : Depths) :
    (vs.foldl Visit.note T)[v.id]? = if v ∈ vs then v.depth?.or T[v.id]? else T[v.id]? := by
  induction vs generalizing T with
  | nil => rfl
  | cons w vs ih =>
    -- a visit under the same number is the same visit
    have hnote : (w.note T)[v.id]? = if w = v then v.depth?.or T[v.id]? else T[v.id]? := by
      rw [Visit.note, getElem?_noted]
      by_cases hid : w.id = v.id
      · rw [hsame w List.mem_cons_self hid, if_pos rfl, if_pos rfl]
      · rw [if_neg (Ne.symm hid), if_neg fun heq => hid (congrArg Visit.id heq)]
    rw [List.foldl_cons, ih (fun u hu => hsame u (List.mem_cons_of_mem w hu)), hnote]
    by_cases hw : w = v
    · subst hw
      simp only [if_true, List.mem_cons, true_or]
      split
      · rw [← Option.or_assoc, Option.or_self]
      · rfl
    · have hw' : ¬v = w := fun heq => hw heq.symm
      simp only [hw, hw', if_false, List.mem_cons, false_or]

/-- Visits leave alone what the table holds about other numbers. -/
theorem getElem?_foldl_note_of_ne {vs : List Visit} {id : Nat} (h : ∀ v ∈ vs, v.id ≠ id)
    (T : Depths) : (vs.foldl Visit.note T)[id]? = T[id]? := by
  induction vs generalizing T with
  | nil => rfl
  | cons v vs ih =>
    obtain ⟨hv, hvs⟩ := List.forall_mem_cons.mp h
    rw [List.foldl_cons, ih hvs, Visit.note, getElem?_noted, if_neg (Ne.symm hv)]

/-- The table is what the visits note in it, one after the other. -/
theorem depths_resolve (program : List Stmt) (T : Depths) :
    (resolve program T).depths = (visits program).foldl Visit.note T :=
  depths_resolveStmts program (.start T)

/-- **Visits with one number are the same**, in a program that the parser accepts. -/
theorem looks_of_parsed {tokens : List Token} {firstId : Nat} {program : List Stmt}
    (h : (Parser.parseProgram tokens firstId).tree? = some program) :
    (∀ id, id ∈ idsOfStmts program ↔ ∃ v ∈ visits program, v.id = id) ∧
      ∀ v ∈ visits program, ∀ v' ∈ visits program, v.id = v'.id → v = v' := by
  have hlooks := looksStmts program (orderly_of_parsed h) ⟨[], false⟩
  exact ⟨hlooks.visited, hlooks.same (Parser.parseProgram_builds h).2.nodup⟩

/-- The table that is left by the visits of a program, in any order and any number of times. -/
theorem getElem?_foldl_of_parsed {tokens : List Token} {firstId : Nat} {program : List Stmt}
    (h : (Parser.parseProgram tokens firstId).tree? = some program) (T : Depths)
    (vs : List Visit) (hvs : ∀ v, v ∈ vs ↔ v ∈ visits program) :
    (∀ v ∈ visits program, (vs.foldl Visit.note T)[v.id]? = v.depth?.or T[v.id]?) ∧
      ∀ id, id ∉ idsOfStmts program → (vs.foldl Visit.note T)[id]? = T[id]? := by
  obtain ⟨hvisited, hsame⟩ := looks_of_parsed h
  constructor
  · intro v hv
    rw [getElem?_foldl_note fun w hw hid => hsame w ((hvs w).mp hw) v hv hid,
      if_pos ((hvs v).mpr hv)]
  · intro id hid
    have hnone : ∀ w ∈ vs, w.id ≠ id := fun w hw heq =>
      hid ((hvisited id).mpr ⟨w, (hvs w).mp hw, heq⟩)
    exact getElem?_foldl_note_of_ne hnone T

end Scope

end Roteiro
