import Roteiro.Proofs.Scope.Likeness
import Roteiro.Proofs.Tree.Twins

/-!
# Twins in their scopes

The analysis of scopes comes to the same depths and to the same complaints for two trees that are
twins: these are of one shape and have the same names.

* `resolve_twins`: twins are analysed in the same way.
* `FunctionDecl.Placed.twin`: a function whose numbers correspond to themselves is a twin of itself.
-/

namespace Roteiro

open Scope

variable {ρ : Renumbering}

theorem Report.Like.twin {r r' : Report} (h : r.Like (Token.Twin ρ) r') : r.Twin ρ r' := by
  cases h with
  | parse ht cause => exact .parse ht cause
  | resolve ht cause => exact .resolve ht cause

namespace Scope

/-- Two analyses have come equally far in trees that are twins. -/
structure Analysis.Twin (ρ : Renumbering) (a a' : Analysis) : Prop where
  scopes : a'.scopes = a.scopes
  body : a'.body = a.body
  inClass : a'.inClass = a.inClass
  loops : a'.loops = a.loops
  depths : Depths.Twin ρ a.depths a'.depths
  reports : List.Forall₂ (Report.Twin ρ) a.reports.toList a'.reports.toList

theorem Analysis.Like.twin {a a' : Analysis} (h : a.Like ρ (Token.Twin ρ) a') : a.Twin ρ a' :=
  ⟨h.scopes, h.body, h.inClass, h.loops, h.depths, h.reports.imp fun _ _ hr => hr.twin⟩

theorem resolves_twins (ρ : Renumbering) : ρ.likeness.Resolves ρ (Token.Twin ρ) where
  id hn := hn.1
  occurrence hn := ⟨hn.2.lexeme, hn.2⟩
  binder hn := ⟨hn.lexeme, hn⟩
  named hn := ⟨hn.lexeme, hn⟩
  keyword ht := ht

/-- **Twins are analysed in the same way.** -/
theorem resolve_twins {program program' : List Stmt}
    (h : List.Forall₂ (Stmt.Twin ρ) program program') {T T' : Depths} (hT : T.Twin ρ T') :
    (resolve program T).Twin ρ (resolve program' T') := by
  have hlike : StmtsLike ρ.likeness [] program program' :=
    likeStmts_of_twins ρ.covers program nofun h
  exact (resolve_like (resolves_twins ρ) hlike hT).twin

theorem accepted_of_twins {a a' : Analysis} (h : a.Twin ρ a') : a'.accepted = a.accepted := by
  have hsize := h.reports.length_eq
  simp only [Array.length_toList] at hsize
  simp only [Analysis.accepted, Array.isEmpty, hsize]

end Scope

/-! ### Twins of themselves -/

/-- What holds of the occurrences in a tree gives them numbers that correspond to themselves. -/
structure Renumbering.Keeps (ρ : Renumbering) (P : Nat → List Layer → String → Prop) : Prop where
  line : ∀ l, ρ.line l l
  id : ∀ i Γ name, P i Γ name → ρ.id i i

theorem Token.Twin.refl (hline : ∀ l, ρ.line l l) (t : Token) : t.Twin ρ t := ⟨rfl, rfl, hline _⟩

theorem twins_self (hline : ∀ l, ρ.line l l) (ts : List Token) :
    List.Forall₂ (Token.Twin ρ) ts ts :=
  List.forall₂_same.mpr fun t _ => .refl hline t

variable {P : Nat → List Layer → String → Prop}

mutual

theorem Expr.Placed.twin (hρ : ρ.Keeps P) (e : Expr) {Γ : List Layer} (h : e.Placed P Γ) :
    e.Twin ρ e := by
  have htoken := Token.Twin.refl hρ.line
  match e with
  | .literal _ => exact .literal
  | .unary o operand => exact .unary (htoken o) (Expr.Placed.twin hρ operand h)
  | .group inner => exact .group (Expr.Placed.twin hρ inner h)
  | .binary left o right =>
    exact .binary (Expr.Placed.twin hρ left h.1) (htoken o) (Expr.Placed.twin hρ right h.2)
  | .logical left o right =>
    exact .logical (Expr.Placed.twin hρ left h.1) (htoken o) (Expr.Placed.twin hρ right h.2)
  | .conditional test yes no =>
    exact .conditional (Expr.Placed.twin hρ test h.1) (Expr.Placed.twin hρ yes h.2.1)
      (Expr.Placed.twin hρ no h.2.2)
  | .var i name => exact .var (hρ.id _ _ _ h.1) (htoken name)
  | .self i keyword => exact .self (hρ.id _ _ _ h.1) (htoken keyword)
  | .assign i name value =>
    exact .assign (hρ.id _ _ _ h.1.1) (htoken name) (Expr.Placed.twin hρ value h.2)
  | .call callee paren arguments =>
    exact .call (Expr.Placed.twin hρ callee h.1) (htoken paren) (placedExprs_twin hρ arguments h.2)
  | .lambda decl => exact .lambda (FunctionDecl.Placed.twin hρ decl h)
  | .array bracket elements => exact .array (htoken bracket) (placedExprs_twin hρ elements h)
  | .index bracket base key =>
    exact .index (htoken bracket) (Expr.Placed.twin hρ base h.1) (Expr.Placed.twin hρ key h.2)
  | .indexSet bracket base key value =>
    exact .indexSet (htoken bracket) (Expr.Placed.twin hρ base h.1) (Expr.Placed.twin hρ key h.2.1)
      (Expr.Placed.twin hρ value h.2.2)
  | .get object name => exact .get (Expr.Placed.twin hρ object h) (htoken name)
  | .set object name value =>
    exact .set (Expr.Placed.twin hρ object h.1) (htoken name) (Expr.Placed.twin hρ value h.2)
termination_by structural e

theorem placedExprs_twin (hρ : ρ.Keeps P) (es : List Expr) {Γ : List Layer}
    (h : placedExprs P es Γ) : List.Forall₂ (Expr.Twin ρ) es es := by
  match es with
  | [] => exact .nil
  | e :: es => exact .cons (Expr.Placed.twin hρ e h.1) (placedExprs_twin hρ es h.2)
termination_by structural es

theorem Stmt.Placed.twin (hρ : ρ.Keeps P) (s : Stmt) {Γ : List Layer} (h : s.Placed P Γ) :
    s.Twin ρ s := by
  have htoken := Token.Twin.refl hρ.line
  match s with
  | .expression e => exact .expression (Expr.Placed.twin hρ e h)
  | .print e => exact .print (Expr.Placed.twin hρ e h)
  | .var name none => exact .var (htoken name) .none
  | .var name (some e) => exact .var (htoken name) (.some (Expr.Placed.twin hρ e h.2))
  | .block body => exact .block (placedStmts_twin hρ body h)
  | .ifElse test yes none =>
    exact .ifElse (Expr.Placed.twin hρ test h.1) (Stmt.Placed.twin hρ yes h.2.1) .none
  | .ifElse test yes (some no) =>
    exact .ifElse (Expr.Placed.twin hρ test h.1) (Stmt.Placed.twin hρ yes h.2.1.1)
      (.some (Stmt.Placed.twin hρ no h.2.2.1))
  | .loop test body none =>
    exact .loop (Expr.Placed.twin hρ test h.1) (Stmt.Placed.twin hρ body h.2.1) .none
  | .loop test body (some step) =>
    exact .loop (Expr.Placed.twin hρ test h.1) (Stmt.Placed.twin hρ body h.2.1.1)
      (.some (Stmt.Placed.twin hρ step h.2.2.1))
  | .exitLoop k => exact .exitLoop (htoken k)
  | .nextIteration k => exact .nextIteration (htoken k)
  | .function decl => exact .function (FunctionDecl.Placed.twin hρ decl h.2)
  | .result k none => exact .result (htoken k) .none
  | .result k (some e) => exact .result (htoken k) (.some (Expr.Placed.twin hρ e h))
  | .classDecl name methods => exact .classDecl (htoken name) (placedMethods_twin hρ methods h.2)
termination_by structural s

theorem placedStmts_twin (hρ : ρ.Keeps P) (ss : List Stmt) {Γ : List Layer}
    (h : placedStmts P ss Γ) : List.Forall₂ (Stmt.Twin ρ) ss ss := by
  match ss with
  | [] => exact .nil
  | s :: ss => exact .cons (Stmt.Placed.twin hρ s h.1) (placedStmts_twin hρ ss h.2)
termination_by structural ss

theorem FunctionDecl.Placed.twin (hρ : ρ.Keeps P) (f : FunctionDecl) {Γ : List Layer}
    (h : f.Placed P Γ) : f.Twin ρ f := by
  match f with
  | ⟨none, params, body⟩ =>
    exact .mk .none (twins_self hρ.line params) (placedStmts_twin hρ body h.2)
  | ⟨some name, params, body⟩ =>
    exact .mk (.some (.refl hρ.line name)) (twins_self hρ.line params)
      (placedStmts_twin hρ body h.2)
termination_by structural f

theorem placedMethods_twin (hρ : ρ.Keeps P) (fs : List FunctionDecl) {Γ : List Layer}
    (h : placedMethods P fs Γ) : List.Forall₂ (FunctionDecl.Twin ρ) fs fs := by
  match fs with
  | [] => exact .nil
  | f :: fs => exact .cons (FunctionDecl.Placed.twin hρ f h.1) (placedMethods_twin hρ fs h.2)
termination_by structural fs

end

end Roteiro
