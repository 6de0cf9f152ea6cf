import Roteiro.Proofs.Parser.Likeness

/-!
# Reading twins

The parser looks at the kinds of tokens and never at their lines, and it gives out numbers one after
another, from wherever it starts. So tokens that differ in their lines are read in the same way: the
trees and complaints that come out are twins.

* `parseProgram_twins`: twins of tokens are read as twins of programs.
-/

namespace Roteiro

namespace Parser

variable {ρ : Renumbering} {k : Nat}

/-- Tokens that are twins correspond. -/
def twins (ρ : Renumbering) : Correspondence where
  token := Token.Twin ρ
  id := ρ.id
  kind h := h.kind
  made h _ _ _ lexeme := h.made _ lexeme

theorem coveredBy_twins (ρ : Renumbering) : (twins ρ).likeness.CoveredBy ρ where
  token h := h.1
  keyword h := h
  occurrence h := ⟨h.1, h.2.1⟩
  binder h := h.1
  named h := h.1

theorem twins_of_reports {rs rs' : List Report}
    (h : List.Forall₂ (Report.Like (Token.Twin ρ)) rs rs') :
    List.Forall₂ (Report.Twin ρ) rs rs' := by
  refine h.imp fun r r' hr => ?_
  cases hr with
  | parse ht cause => exact .parse ht cause
  | resolve ht cause => exact .resolve ht cause

/-- What is read from twins of tokens, with trees that are twins by `A`. -/
structure Parsed.Twin (ρ : Renumbering) (k : Nat) {α : Type} (A : α → α → Prop)
    (p p' : Parsed α) : Prop where
  tree : Option.Rel A p.tree? p'.tree?
  nextId : p'.nextId = p.nextId + k
  reports : List.Forall₂ (Report.Twin ρ) p.reports p'.reports

/-- **Twins of tokens are read as twins of programs.** Whatever the numbers start from, and whether
or not there is anything to complain about. -/
theorem parseProgram_twins {tokens tokens' : List Token}
    (h : List.Forall₂ (Token.Twin ρ) tokens tokens') (hline : ρ.line 1 1) {firstId : Nat}
    (hids : ∀ i, firstId ≤ i → ρ.id i (i + k)) :
    (parseProgram tokens firstId).Twin ρ k (List.Forall₂ (Stmt.Twin ρ))
      (parseProgram tokens' (firstId + k)) := by
  have hread := parseProgram_like (C := twins ρ) h (fun _ => ⟨rfl, rfl, hline⟩) hids
  refine ⟨?_, hread.nextId, twins_of_reports hread.reports⟩
  exact rel_imp (fun ss ss' hss => twins_of_likeStmts (coveredBy_twins ρ) ss (hss [])) hread.tree

end Parser

end Roteiro
