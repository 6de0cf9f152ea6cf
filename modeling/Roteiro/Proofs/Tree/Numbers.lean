import Roteiro.Tree.Basic

/-!
# The numbers of name occurrences

Every occurrence of a name in a tree carries a number. `Expr.ids` and its companions list them in
the order of the source. The step of a loop is listed once, in front of the body, although it also
ends the body: the two are copies of one another and have the same numbers.

`Numbered lo hi ids` says that each number from `lo` up to `hi` was given out exactly once. It is
closed under putting trees side by side, and so describes the trees that one run of the parser
builds from its first number to its next free one.
-/

namespace Roteiro

mutual

/-- The numbers in an expression. -/
def Expr.ids : Expr → List Nat
  | .literal _ => []
  | .unary _ operand => operand.ids
  | .binary left _ right => left.ids ++ right.ids
  | .group inner => inner.ids
  | .logical left _ right => left.ids ++ right.ids
  | .conditional test yes no => test.ids ++ (yes.ids ++ no.ids)
  | .var id _ => [id]
  | .assign id _ value => id :: value.ids
  | .call callee _ arguments => callee.ids ++ idsOfExprs arguments
  | .lambda decl => decl.ids
  | .array _ elements => idsOfExprs elements
  | .index _ base key => base.ids ++ key.ids
  | .indexSet _ base key value => base.ids ++ (key.ids ++ value.ids)
  | .get object _ => object.ids
  | .set object _ value => object.ids ++ value.ids
  | .self id _ => [id]

/-- The numbers in several expressions. -/
def idsOfExprs : List Expr → List Nat
  | [] => []
  | e :: es => e.ids ++ idsOfExprs es

/-- The numbers in a statement, each copy of a step counted once. -/
def Stmt.ids : Stmt → List Nat
  | .expression expr => expr.ids
  | .print expr => expr.ids
  | .var _ none => []
  | .var _ (some value) => value.ids
  | .block body => idsOfStmts body
  | .ifElse test yes none => test.ids ++ yes.ids
  | .ifElse test yes (some no) => test.ids ++ (yes.ids ++ no.ids)
  | .loop test body none => test.ids ++ body.ids
  | .loop test (.block [body, .expression step]) (some _) => test.ids ++ (step.ids ++ body.ids)
  | .loop test body (some _) => test.ids ++ body.ids
  | .exitLoop _ => []
  | .nextIteration _ => []
  | .function decl => decl.ids
  | .result _ none => []
  | .result _ (some value) => value.ids
  | .classDecl _ methods => idsOfFunctions methods

/-- The numbers in several statements. -/
def idsOfStmts : List Stmt → List Nat
  | [] => []
  | s :: ss => s.ids ++ idsOfStmts ss

/-- The numbers in a function. -/
def FunctionDecl.ids : FunctionDecl → List Nat
  | ⟨_, _, body⟩ => idsOfStmts body

/-- The numbers in several functions. -/
def idsOfFunctions : List FunctionDecl → List Nat
  | [] => []
  | f :: fs => f.ids ++ idsOfFunctions fs

end

attribute [simp] Expr.ids idsOfExprs Stmt.ids idsOfStmts FunctionDecl.ids idsOfFunctions

/-- The numbers from `lo` up to `hi` are listed, each of them once. -/
structure Numbered (lo hi : Nat) (ids : List Nat) : Prop where
  le : lo ≤ hi
  nodup : ids.Nodup
  mem_iff : ∀ i, i ∈ ids ↔ lo ≤ i ∧ i < hi

namespace Numbered

variable {lo mid hi : Nat} {xs ys : List Nat}

theorem nil (k : Nat) : Numbered k k [] := by
  refine ⟨Nat.le_refl k, List.nodup_nil, fun i => ?_⟩
  simp only [List.not_mem_nil, false_iff]
  omega

theorem single (k : Nat) : Numbered k (k + 1) [k] := by
  refine ⟨Nat.le_succ k, by simp, fun i => ?_⟩
  rw [List.mem_singleton]
  omega

/-- Trees side by side are numbered if the second starts where the first ends. -/
theorem append (hx : Numbered lo mid xs) (hy : Numbered mid hi ys) :
    Numbered lo hi (xs ++ ys) := by
  refine ⟨Nat.le_trans hx.le hy.le, ?_, fun i => ?_⟩
  · refine List.nodup_append.mpr ⟨hx.nodup, hy.nodup, fun i hi j hj hij => ?_⟩
    have hlt := ((hx.mem_iff i).mp hi).2
    have hge := ((hy.mem_iff j).mp hj).1
    omega
  · have hlo := hx.le
    have hhi := hy.le
    rw [List.mem_append, hx.mem_iff, hy.mem_iff]
    omega

theorem perm (hx : Numbered lo hi xs) (h : xs.Perm ys) : Numbered lo hi ys :=
  ⟨hx.le, h.nodup_iff.mp hx.nodup, fun i => by rw [← h.mem_iff, hx.mem_iff]⟩

end Numbered

/-- The parts of a counted loop hold the numbers of the loop. -/
theorem Stmt.ids_countedLoop (start : Option Stmt) (test step : Option Expr) (body : Stmt) :
    (Stmt.countedLoop start test step body).ids =
      (start.map Stmt.ids).getD [] ++ ((test.map Expr.ids).getD [] ++
        ((step.map Expr.ids).getD [] ++ body.ids)) := by
  cases start <;> cases test <;> cases step <;> simp [Stmt.countedLoop]

end Roteiro
