import Roteiro.Proofs.Tree.Copies
import Roteiro.Proofs.Tree.Phrase

/-!
# Trees without what is not printed

The text of a tree shows its shape, its constants and the lexemes of its names and operators. It
shows neither the numbers of the occurrences nor the lines of the tokens, and some tokens it leaves
out altogether: the parenthesis of a call, the brackets of arrays and their entries, and the
keywords of statements that leave a loop or a function. A tree is *bare* if all this is blotted out.

* `Node.phrase_bare`: a tree and its bare form have the same text.
* `Node.induction`: a tree is proved right if each node is once its parts are.
-/

namespace Roteiro

/-- A token without its line. -/
def Token.bare (t : Token) : Token := { t with line := 0 }

@[simp] theorem Token.lexeme_bare (t : Token) : t.bare.lexeme = t.lexeme := rfl

@[simp] theorem Token.kind_bare (t : Token) : t.bare.kind = t.kind := rfl

mutual

/-- An expression without the numbers, lines and tokens that are not printed. -/
def Expr.bare : Expr → Expr
  | .literal value => .literal value
  | .unary operator operand => .unary operator.bare operand.bare
  | .binary left operator right => .binary left.bare operator.bare right.bare
  | .group inner => .group inner.bare
  | .logical left operator right => .logical left.bare operator.bare right.bare
  | .conditional test yes no => .conditional test.bare yes.bare no.bare
  | .var _ name => .var 0 name.bare
  | .assign _ name value => .assign 0 name.bare value.bare
  | .call callee _ arguments => .call callee.bare default (bareExprs arguments)
  | .lambda decl => .lambda decl.bare
  | .array _ elements => .array default (bareExprs elements)
  | .index _ base key => .index default base.bare key.bare
  | .indexSet _ base key value => .indexSet default base.bare key.bare value.bare
  | .get object name => .get object.bare name.bare
  | .set object name value => .set object.bare name.bare value.bare
  | .self _ keyword => .self 0 keyword.bare

/-- Expressions without what is not printed. -/
def bareExprs : List Expr → List Expr
  | [] => []
  | e :: es => e.bare :: bareExprs es

/-- A statement without the numbers, lines and tokens that are not printed. -/
def Stmt.bare : Stmt → Stmt
  | .expression expr => .expression expr.bare
  | .print expr => .print expr.bare
  | .var name none => .var name.bare none
  | .var name (some value) => .var name.bare (some value.bare)
  | .block body => .block (bareStmts body)
  | .ifElse test yes none => .ifElse test.bare yes.bare none
  | .ifElse test yes (some no) => .ifElse test.bare yes.bare (some no.bare)
  | .loop test body none => .loop test.bare body.bare none
  | .loop test body (some step) => .loop test.bare body.bare (some step.bare)
  | .exitLoop _ => .exitLoop default
  | .nextIteration _ => .nextIteration default
  | .function decl => .function decl.bare
  | .result _ none => .result default none
  | .result _ (some value) => .result default (some value.bare)
  | .classDecl name methods => .classDecl name.bare (bareFunctions methods)

/-- Statements without what is not printed. -/
def bareStmts : List Stmt → List Stmt
  | [] => []
  | s :: ss => s.bare :: bareStmts ss

/-- A function without what is not printed. -/
def FunctionDecl.bare : FunctionDecl → FunctionDecl
  | ⟨name?, params, body⟩ => ⟨name?.map Token.bare, params.map Token.bare, bareStmts body⟩

/-- Functions without what is not printed. -/
def bareFunctions : List FunctionDecl → List FunctionDecl
  | [] => []
  | f :: fs => f.bare :: bareFunctions fs

end

/-! ### Lists of parts -/

theorem bareExprs_eq (es : List Expr) : bareExprs es = es.map Expr.bare := by
  induction es with
  | nil => rfl
  | cons e es ih => rw [bareExprs, ih, List.map_cons]

theorem bareStmts_eq (ss : List Stmt) : bareStmts ss = ss.map Stmt.bare := by
  induction ss with
  | nil => rfl
  | cons s ss ih => rw [bareStmts, ih, List.map_cons]

theorem bareFunctions_eq (fs : List FunctionDecl) :
    bareFunctions fs = fs.map FunctionDecl.bare := by
  induction fs with
  | nil => rfl
  | cons f fs ih => rw [bareFunctions, ih, List.map_cons]

theorem Expr.phrases_eq (es : List Expr) : Expr.phrases es = es.map Expr.phrase := by
  induction es with
  | nil => rfl
  | cons e es ih => rw [Expr.phrases, ih, List.map_cons]

theorem Stmt.phrases_eq (ss : List Stmt) : Stmt.phrases ss = ss.map Stmt.phrase := by
  induction ss with
  | nil => rfl
  | cons s ss ih => rw [Stmt.phrases, ih, List.map_cons]

theorem FunctionDecl.phrases_eq (kind : String) (fs : List FunctionDecl) :
    FunctionDecl.phrases kind fs = fs.map (FunctionDecl.phrase kind) := by
  induction fs with
  | nil => rfl
  | cons f fs ih => rw [FunctionDecl.phrases, ih, List.map_cons]

attribute [simp] Expr.bare Stmt.bare FunctionDecl.bare Expr.phrase Stmt.phrase bareExprs_eq
  bareStmts_eq bareFunctions_eq Expr.phrases_eq Stmt.phrases_eq FunctionDecl.phrases_eq

namespace Node

/-- A node without what is not printed. -/
@[simp] def bare : Node → Node
  | .expr e => .expr e.bare
  | .stmt s => .stmt s.bare

/-- What is printed for a node. -/
@[simp] def phrase : Node → Phrase
  | .expr e => e.phrase
  | .stmt s => s.phrase

/-- A property holds of every node if it holds of each one whose parts have it. -/
theorem induction {P : Node → Prop} (h : ∀ node : Node, (∀ p ∈ node.parts, P p.2) → P node)
    (node : Node) : P node :=
  h node fun p _ => induction h p.2
termination_by sizeOf node
decreasing_by exact sizeOf_lt_of_mem_parts ‹_›

/-- A function is printed like its bare form, if the statements of its body are. -/
theorem phrase_bare_function (kind : String) (f : FunctionDecl)
    (h : ∀ s ∈ f.body, s.bare.phrase = s.phrase) : f.bare.phrase kind = f.phrase kind := by
  obtain ⟨name?, params, body⟩ := f
  have hbody : (body.map Stmt.bare).map Stmt.phrase = body.map Stmt.phrase := by
    rw [List.map_map]
    exact List.map_congr_left h
  cases name? <;>
    simp only [FunctionDecl.bare, FunctionDecl.phrase, FunctionDecl.paramsPhrase, Option.map_none,
      Option.map_some, bareStmts_eq, Stmt.phrases_eq, hbody, List.map_map] <;>
    rfl

/-- **A tree and its bare form have the same text.** -/
theorem phrase_bare (node : Node) : node.bare.phrase = node.phrase := by
  induction node using Node.induction with
  | h node ih =>
  match node with
  | .expr (.literal _) | .expr (.var _ _) | .expr (.self _ _) | .stmt (.exitLoop _)
  | .stmt (.nextIteration _) | .stmt (.var _ none) | .stmt (.result _ none) => simp
  | .expr (.call _ _ _) | .expr (.array _ _) | .stmt (.block _) | .expr (.unary _ _)
  | .expr (.group _) | .expr (.get _ _) | .expr (.binary _ _ _) | .expr (.logical _ _ _)
  | .expr (.assign _ _ _) | .expr (.index _ _ _) | .expr (.set _ _ _)
  | .expr (.conditional _ _ _) | .expr (.indexSet _ _ _ _) | .stmt (.expression _)
  | .stmt (.print _) | .stmt (.var _ (some _)) | .stmt (.ifElse _ _ none)
  | .stmt (.ifElse _ _ (some _)) | .stmt (.loop _ _ none) | .stmt (.loop _ _ (some _))
  | .stmt (.result _ (some _)) => simp_all
  | .expr (.lambda f) | .stmt (.function f) =>
    exact phrase_bare_function _ f fun s hs => ih _ (List.mem_map_of_mem hs)
  | .stmt (.classDecl name methods) =>
    have hmethods : ∀ f ∈ methods, f.bare.phrase "metodo" = f.phrase "metodo" := fun f hf =>
      phrase_bare_function _ f fun s hs =>
        ih _ (List.mem_flatMap.mpr ⟨f, hf, List.mem_map_of_mem hs⟩)
    simpa using hmethods

end Node

end Roteiro
