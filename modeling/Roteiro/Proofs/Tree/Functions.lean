import Roteiro.Tree.Basic

/-!
# The functions in a tree

`Expr.functions` and its companions list the functions, methods and lambdas that are written in a
tree, those inside of another function as well.

* `functionsOfStmts_closed`: what is written in a function of some statements is written in the
  statements.
-/

namespace Roteiro

mutual

/-- The functions in an expression. -/
def Expr.functions : Expr → List FunctionDecl
  | .literal _ => []
  | .unary _ operand => operand.functions
  | .binary left _ right => left.functions ++ right.functions
  | .group inner => inner.functions
  | .logical left _ right => left.functions ++ right.functions
  | .conditional test yes no => test.functions ++ (yes.functions ++ no.functions)
  | .var _ _ => []
  | .assign _ _ value => value.functions
  | .call callee _ arguments => callee.functions ++ functionsOfExprs arguments
  | .lambda decl => decl.functions
  | .array _ elements => functionsOfExprs elements
  | .index _ base key => base.functions ++ key.functions
  | .indexSet _ base key value => base.functions ++ (key.functions ++ value.functions)
  | .get object _ => object.functions
  | .set object _ value => object.functions ++ value.functions
  | .self _ _ => []

/-- The functions in several expressions. -/
def functionsOfExprs : List Expr → List FunctionDecl
  | [] => []
  | e :: es => e.functions ++ functionsOfExprs es

/-- The functions in a statement. -/
def Stmt.functions : Stmt → List FunctionDecl
  | .expression expr => expr.functions
  | .print expr => expr.functions
  | .var _ none => []
  | .var _ (some value) => value.functions
  | .block body => functionsOfStmts body
  | .ifElse test yes none => test.functions ++ yes.functions
  | .ifElse test yes (some no) => test.functions ++ (yes.functions ++ no.functions)
  | .loop test body none => test.functions ++ body.functions
  | .loop test body (some step) => test.functions ++ (body.functions ++ step.functions)
  | .exitLoop _ => []
  | .nextIteration _ => []
  | .function decl => decl.functions
  | .result _ none => []
  | .result _ (some value) => value.functions
  | .classDecl _ methods => functionsOfMethods methods

/-- The functions in several statements. -/
def functionsOfStmts : List Stmt → List FunctionDecl
  | [] => []
  | s :: ss => s.functions ++ functionsOfStmts ss

/-- A function and the functions in it. -/
def FunctionDecl.functions : FunctionDecl → List FunctionDecl
  | ⟨name?, params, body⟩ => ⟨name?, params, body⟩ :: functionsOfStmts body

/-- Several functions and the functions in them. -/
def functionsOfMethods : List FunctionDecl → List FunctionDecl
  | [] => []
  | f :: fs => f.functions ++ functionsOfMethods fs

end

attribute [simp] Expr.functions functionsOfExprs Stmt.functions functionsOfStmts functionsOfMethods

theorem FunctionDecl.functions_eq (f : FunctionDecl) :
    f.functions = f :: functionsOfStmts f.body := by
  cases f
  rw [FunctionDecl.functions]

theorem FunctionDecl.mem_functions_self (f : FunctionDecl) : f ∈ f.functions := by
  rw [f.functions_eq]
  exact List.mem_cons_self

theorem mem_functionsOfStmts {s : Stmt} {f : FunctionDecl} {ss : List Stmt} (hs : s ∈ ss)
    (hf : f ∈ s.functions) : f ∈ functionsOfStmts ss := by
  induction ss with
  | nil => cases hs
  | cons t ss ih =>
    rw [functionsOfStmts, List.mem_append]
    rcases List.mem_cons.mp hs with rfl | hs
    · exact .inl hf
    · exact .inr (ih hs)

theorem mem_functionsOfMethods {f g : FunctionDecl} {fs : List FunctionDecl} (hf : f ∈ fs)
    (hg : g ∈ f.functions) : g ∈ functionsOfMethods fs := by
  induction fs with
  | nil => cases hf
  | cons h fs ih =>
    rw [functionsOfMethods, List.mem_append]
    rcases List.mem_cons.mp hf with rfl | hf
    · exact .inl hg
    · exact .inr (ih hf)

/-- The functions in the functions of a list are in the list. -/
def Closed (fs : List FunctionDecl) : Prop := ∀ f ∈ fs, f.functions ⊆ fs

theorem Closed.nil : Closed [] := fun _ h => by cases h

theorem Closed.append {fs gs : List FunctionDecl} (hf : Closed fs) (hg : Closed gs) :
    Closed (fs ++ gs) := by
  intro f h
  rcases List.mem_append.mp h with h | h
  · exact fun _ hmem => List.mem_append_left gs (hf f h hmem)
  · exact fun _ hmem => List.mem_append_right fs (hg f h hmem)

mutual

theorem Expr.functions_closed (e : Expr) : Closed e.functions := by
  match e with
  | .literal _ | .var _ _ | .self _ _ => exact .nil
  | .unary _ operand => exact operand.functions_closed
  | .group inner => exact inner.functions_closed
  | .binary left _ right => exact left.functions_closed.append right.functions_closed
  | .logical left _ right => exact left.functions_closed.append right.functions_closed
  | .conditional test yes no =>
    exact test.functions_closed.append (yes.functions_closed.append no.functions_closed)
  | .assign _ _ value => exact value.functions_closed
  | .call callee _ arguments =>
    exact callee.functions_closed.append (functionsOfExprs_closed arguments)
  | .lambda decl => exact decl.functions_closed
  | .array _ elements => exact functionsOfExprs_closed elements
  | .index _ base key => exact base.functions_closed.append key.functions_closed
  | .indexSet _ base key value =>
    exact base.functions_closed.append (key.functions_closed.append value.functions_closed)
  | .get object _ => exact object.functions_closed
  | .set object _ value => exact object.functions_closed.append value.functions_closed

theorem functionsOfExprs_closed (es : List Expr) : Closed (functionsOfExprs es) := by
  match es with
  | [] => exact .nil
  | e :: es => exact e.functions_closed.append (functionsOfExprs_closed es)

theorem Stmt.functions_closed (s : Stmt) : Closed s.functions := by
  match s with
  | .var _ none | .exitLoop _ | .nextIteration _ | .result _ none => exact .nil
  | .expression expr => exact expr.functions_closed
  | .print expr => exact expr.functions_closed
  | .var _ (some value) => exact value.functions_closed
  | .block body => exact functionsOfStmts_closed body
  | .ifElse test yes none => exact test.functions_closed.append yes.functions_closed
  | .ifElse test yes (some no) =>
    exact test.functions_closed.append (yes.functions_closed.append no.functions_closed)
  | .loop test body none => exact test.functions_closed.append body.functions_closed
  | .loop test body (some step) =>
    exact test.functions_closed.append (body.functions_closed.append step.functions_closed)
  | .function decl => exact decl.functions_closed
  | .result _ (some value) => exact value.functions_closed
  | .classDecl _ methods => exact functionsOfMethods_closed methods

theorem functionsOfStmts_closed (ss : List Stmt) : Closed (functionsOfStmts ss) := by
  match ss with
  | [] => exact .nil
  | s :: ss => exact s.functions_closed.append (functionsOfStmts_closed ss)

theorem FunctionDecl.functions_closed (f : FunctionDecl) : Closed f.functions := by
  match f with
  | ⟨name?, params, body⟩ =>
    intro g hg
    rw [FunctionDecl.functions] at hg
    rcases List.mem_cons.mp hg with rfl | hg
    · exact List.Subset.refl _
    · rw [FunctionDecl.functions]
      exact fun _ h => List.mem_cons_of_mem _ (functionsOfStmts_closed body g hg h)

theorem functionsOfMethods_closed (fs : List FunctionDecl) : Closed (functionsOfMethods fs) := by
  match fs with
  | [] => exact .nil
  | f :: fs => exact f.functions_closed.append (functionsOfMethods_closed fs)

end

end Roteiro
