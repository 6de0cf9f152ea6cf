import Roteiro.Proofs.Scope.Visits
import Roteiro.Proofs.Tree.Copies

/-!
# What the analysis of a piece changes

The analysis of a statement or expression opens and closes scopes, enters and leaves functions,
classes and loops, and complains in the middle of it. Behind it little has changed, whatever the
analysis stood at and whatever the tree: there are as many scopes as before, and those below the
innermost one are the same; in the innermost one, only the names that the piece declares itself may
be new or may be defined now; the place is the same as far as functions, classes and loops are
concerned; and the table has got entries only under numbers that stand in the piece.

* `Node.has_of_mem_visits`: what the analysis finds, it finds under numbers that stand in the piece.
* `resolve_effects`: what the analysis of statements and expressions changes.
-/

namespace Roteiro

namespace Node

/-! ### Numbers in a node -/

/-- The number is that of an occurrence somewhere in the node. -/
def Has (node : Node) (id : Nat) : Prop := ∃ place, node.numberAt? place = some id

variable {node : Node}

theorem has_of_number {id : Nat} (h : node.number? = some id) : node.Has id := ⟨[], h⟩

/-- What stands in a part stands in the node. -/
theorem has_of_mem_parts {x : List Around × Node} (hx : x ∈ node.parts) {id : Nat}
    (h : x.2.Has id) : node.Has id := by
  obtain ⟨place, hplace⟩ := h
  obtain ⟨i, hi⟩ := List.mem_iff_getElem?.mp hx
  exact ⟨i :: place, by rw [numberAt?_cons, hi, Option.bind_some, hplace]⟩

end Node

open Scope

/-! ### What is found in the parts -/

section Members

variable {v : Visit}

theorem mem_visitsOfExprs {es : List Expr} {p : Place} (h : v ∈ visitsOfExprs es p) :
    ∃ e ∈ es, v ∈ e.visits p := by
  induction es with
  | nil => exact absurd h List.not_mem_nil
  | cons e es ih =>
    rcases List.mem_append.mp h with h | h
    · exact ⟨e, List.mem_cons_self, h⟩
    · obtain ⟨e', he', hv⟩ := ih h
      exact ⟨e', List.mem_cons_of_mem e he', hv⟩

theorem mem_visitsOfStmts {ss : List Stmt} {p : Place} (h : v ∈ visitsOfStmts ss p) :
    ∃ s ∈ ss, ∃ q, v ∈ s.visits q := by
  induction ss generalizing p with
  | nil => exact absurd h List.not_mem_nil
  | cons s ss ih =>
    rcases List.mem_append.mp h with h | h
    · exact ⟨s, List.mem_cons_self, p, h⟩
    · obtain ⟨s', hs', hv⟩ := ih h
      exact ⟨s', List.mem_cons_of_mem s hs', hv⟩

theorem FunctionDecl.mem_visits {f : FunctionDecl} {p : Place} (h : v ∈ f.visits p) :
    ∃ s ∈ f.body, ∃ q, v ∈ s.visits q := by
  match f with
  | ⟨_, _, _⟩ => exact mem_visitsOfStmts h

theorem mem_visitsOfFunctions {fs : List FunctionDecl} {p : Place}
    (h : v ∈ visitsOfFunctions fs p) : ∃ f ∈ fs, ∃ s ∈ f.body, ∃ q, v ∈ s.visits q := by
  induction fs with
  | nil => exact absurd h List.not_mem_nil
  | cons f fs ih =>
    rcases List.mem_append.mp h with h | h
    · exact ⟨f, List.mem_cons_self, f.mem_visits h⟩
    · obtain ⟨f', hf', hv⟩ := ih h
      exact ⟨f', List.mem_cons_of_mem f hf', hv⟩

end Members

namespace Node

/-- What the analysis finds in a node. -/
def visits : Node → Place → List Visit
  | .expr e, p => e.visits p
  | .stmt s, p => s.visits p

/-- A visit is one of the node itself or one of its parts, wherever the part is passed over. -/
theorem mem_visits {node : Node} {p : Place} {v : Visit} (h : v ∈ node.visits p) :
    node.number? = some v.id ∨ ∃ x ∈ node.parts, ∃ q, v ∈ x.2.visits q := by
  match node with
  | .expr (.var id _) =>
    cases List.mem_singleton.mp h
    exact .inl rfl
  | .expr (.self id _) =>
    refine .inl ?_
    cases List.mem_singleton.mp h
    simp only [number?, Place.visit]
    split <;> rfl
  | .expr (.assign id name value) =>
    rcases List.mem_append.mp h with h | h
    · exact .inr ⟨_, List.mem_cons_self, p, h⟩
    · cases List.mem_singleton.mp h
      exact .inl rfl
  | .expr (.call callee _ arguments) =>
    refine .inr ?_
    rcases List.mem_append.mp h with h | h
    · exact ⟨_, List.mem_cons_self, p, h⟩
    · obtain ⟨e, he, hv⟩ := mem_visitsOfExprs h
      exact ⟨_, List.mem_cons_of_mem _ (List.mem_map_of_mem he), p, hv⟩
  | .expr (.array _ elements) =>
    obtain ⟨e, he, hv⟩ := mem_visitsOfExprs h
    exact .inr ⟨_, List.mem_map_of_mem he, p, hv⟩
  | .expr (.lambda decl) | .stmt (.function decl) =>
    obtain ⟨s, hs, hv⟩ := decl.mem_visits h
    exact .inr ⟨_, List.mem_map_of_mem hs, hv⟩
  | .stmt (.block body) =>
    obtain ⟨s, hs, hv⟩ := mem_visitsOfStmts h
    exact .inr ⟨_, List.mem_map_of_mem hs, hv⟩
  | .stmt (.classDecl _ methods) =>
    obtain ⟨f, hf, s, hs, hv⟩ := mem_visitsOfFunctions h
    exact .inr ⟨_, List.mem_flatMap.mpr ⟨f, hf, List.mem_map_of_mem hs⟩, hv⟩
  | .expr (.literal _) | .stmt (.var _ none) | .stmt (.exitLoop _) | .stmt (.nextIteration _)
  | .stmt (.result _ none) => exact absurd h List.not_mem_nil
  | .expr (.unary _ _) | .expr (.group _) | .expr (.get _ _) | .stmt (.expression _)
  | .stmt (.print _) | .stmt (.var _ (some _)) | .stmt (.result _ (some _)) =>
    exact .inr ⟨_, List.mem_cons_self, _, h⟩
  | .expr (.binary _ _ _) | .expr (.logical _ _ _) | .expr (.index _ _ _) | .expr (.set _ _ _)
  | .stmt (.ifElse _ _ none) | .stmt (.loop _ _ none) =>
    refine .inr ?_
    rcases List.mem_append.mp h with h | h
    · exact ⟨_, List.mem_cons_self, _, h⟩
    · exact ⟨_, List.mem_cons_of_mem _ List.mem_cons_self, _, h⟩
  | .expr (.conditional _ _ _) | .expr (.indexSet _ _ _ _) | .stmt (.ifElse _ _ (some _))
  | .stmt (.loop _ _ (some _)) =>
    refine .inr ?_
    rcases List.mem_append.mp h with h | h
    · exact ⟨_, List.mem_cons_self, _, h⟩
    · rcases List.mem_append.mp h with h | h
      · exact ⟨_, List.mem_cons_of_mem _ List.mem_cons_self, _, h⟩
      · exact ⟨_, List.mem_cons_of_mem _ (List.mem_cons_of_mem _ List.mem_cons_self), _, h⟩

/-- **All that is found in a node is found under numbers that stand in it.** -/
theorem has_of_mem_visits {node : Node} {p : Place} {v : Visit} (h : v ∈ node.visits p) :
    node.Has v.id := by
  rcases mem_visits h with hnumber | ⟨x, hx, q, hv⟩
  · exact has_of_number hnumber
  · have hsmaller := sizeOf_lt_of_mem_parts hx
    exact has_of_mem_parts hx (has_of_mem_visits hv)
termination_by sizeOf node

end Node

namespace Scope

open Analysis

/-! ### The table -/

/-- The table is the same under numbers that do not stand in the node. -/
theorem depths_of_not_has (node : Node) {p : Place} {T T' : Depths}
    (h : T' = (node.visits p).foldl Visit.note T) {id : Nat} (hid : ¬node.Has id) :
    T'[id]? = T[id]? := by
  rw [h]
  refine getElem?_foldl_note_of_ne (fun v hv heq => ?_) T
  rw [← heq] at hid
  exact hid (Node.has_of_mem_visits hv)

/-! ### The scopes -/

/-- `Gains names scope scope'`: each name of a scope has stayed as it was, or it is one of `names`
and is defined now, whether it was not there before, was declared or was defined already. -/
def Gains (names : List Token) (scope scope' : Bindings Stage) : Prop :=
  ∀ x, scope'.find? x = scope.find? x ∨
    x ∈ names.map Token.lexeme ∧ scope'.find? x = some .defined

theorem gains_withDefined (scope : Bindings Stage) (names : List Token) :
    Gains names scope (withDefined scope names) := by
  intro x
  rw [stage_withDefined]
  split
  · next hx => exact .inr ⟨hx, rfl⟩
  · exact .inl rfl

/-- `Spares node a a'`: what the analysis of a node leaves alone when it comes from `a` to `a'`. -/
structure Spares (node : Node) (a a' : Analysis) : Prop where
  /-- The function, the class and the loops around are the same. No complaint is taken back. -/
  later : Later a a'
  depths : ∀ id, ¬node.Has id → a'.depths[id]? = a.depths[id]?

/-- `Grown names scopes scopes'`: a stack of scopes has kept its height, and all of its scopes but
the innermost, which has gained names among `names` at most. -/
structure Grown (names : List Token) (scopes scopes' : List (Bindings Stage)) : Prop where
  height : scopes'.length = scopes.length
  outer : scopes'.tail = scopes.tail
  innermost : Option.Rel (Gains names) scopes.head? scopes'.head?

theorem grown_withNames (scopes : List (Bindings Stage)) (names : List Token) :
    Grown names scopes (withNames scopes names) := by
  cases scopes with
  | nil => exact ⟨rfl, rfl, .none⟩
  | cons scope outer => exact ⟨rfl, rfl, .some (gains_withDefined scope names)⟩

/-- **What the analysis of a piece changes.** From every state of the analysis, and for every tree:

* behind an expression the stack of scopes is the same, in the height and in every scope;
* behind a statement it has the same height and the same scopes below the innermost one, in which
  the statement has at most added names that it declares, or completed them;
* behind both, the function, the class and the number of loops around are the same, and so is what
  the table holds about numbers that do not stand in the piece. -/
theorem resolve_effects :
    (∀ (e : Expr) (a : Analysis),
      (resolveExpr e a).scopes = a.scopes ∧ Spares (.expr e) a (resolveExpr e a)) ∧
    ∀ (s : Stmt) (a : Analysis),
      Grown (declared s) a.scopes (resolveStmt s a).scopes ∧
        Spares (.stmt s) a (resolveStmt s a) := by
  constructor
  · intro e a
    have hdepths := depths_resolveExpr e a
    exact ⟨scopes_resolveExpr e a, resolveExpr_later e a,
      fun id hid => depths_of_not_has (.expr e) hdepths hid⟩
  · intro s a
    have hdepths := depths_resolveStmt s a
    refine ⟨?_, resolveStmt_later s a,
      fun id hid => depths_of_not_has (.stmt s) hdepths hid⟩
    rw [scopes_resolveStmt]
    exact grown_withNames a.scopes (declared s)

end Scope

end Roteiro
