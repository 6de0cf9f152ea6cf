import Roteiro.Proofs.Scope.Analysis
import Roteiro.Proofs.Tree.Numbers

/-!
# The scopes around an occurrence

What an occurrence of a name means is a matter of the source alone: of the scopes around it, and of
the names that are declared in each of them before it. `Expr.around` and its companions read that
off the tree. They know nothing of how the analysis goes about it, and of no table.

A `Site` is a piece of the source that has a scope: a block, a function with its parameters, or a
method with its receiver, whose scope lies around that of the function. A block that declares
nothing is not told apart from any other, so that both copies of the step of a counted loop have the
same scopes around them.

* `Expr.around_of_not_mem` and its companions: a number that does not occur in a tree has no scopes
  around it there.
-/

namespace Roteiro

namespace Scope

/-- A piece of the source that has a scope. -/
inductive Site where
  | block (body : List Stmt)
  | call (decl : FunctionDecl)
  | receiver (method : FunctionDecl)

/-- The statements that stand in a scope themselves. -/
def Site.statements : Site → List Stmt
  | block body => body
  | call decl => decl.body
  | receiver _ => []

/-- The names that are declared in a scope. -/
def Site.names : Site → List Token
  | block body => declaredBy body
  | call decl => decl.params ++ declaredBy decl.body
  | receiver _ => []

/-- The numbers of the occurrences inside of a scope. -/
def Site.ids : Site → List Nat
  | block body => idsOfStmts body
  | call decl => decl.ids
  | receiver method => method.ids

/-- A scope around some place of a program, with the names that are declared before that place. -/
structure Layer where
  site? : Option Site
  names : Bindings Stage

/-- A scope with some further names. -/
def Layer.introduce (L : Layer) (names : List Token) : Layer :=
  { L with names := withDefined L.names names }

/-- The scope of a block, where it starts. -/
def Layer.ofBlock (body : List Stmt) : Layer :=
  ⟨if (declaredBy body).isEmpty then none else some (.block body), []⟩

/-- The scope of a function, behind its parameters. -/
def Layer.ofCall (decl : FunctionDecl) : Layer :=
  Layer.introduce ⟨some (.call decl), []⟩ decl.params

/-- The scope of the receiver of a method. -/
def Layer.receiver (method : FunctionDecl) : Layer :=
  ⟨some (.receiver method), [(selfName, .defined)]⟩

/-- The scopes as the analysis has them. -/
def scopesOf (Γ : List Layer) : List (Bindings Stage) := Γ.map Layer.names

/-- Further names in the innermost scope. -/
def introduced : List Layer → List Token → List Layer
  | [], _ => []
  | L :: Γ, names => L.introduce names :: Γ

/-- A name in the innermost scope whose value is not complete. -/
def started : List Layer → Token → List Layer
  | [], _ => []
  | L :: Γ, name => { L with names := L.names.insert name.lexeme .declared } :: Γ

/-- The number of scopes between a place and the nearest one that declares a name. -/
def depthIn (Γ : List Layer) (name : String) : Option Nat :=
  Γ.findIdx? fun L => L.names.binds name

theorem introduced_nil (Γ : List Layer) : introduced Γ [] = Γ := by
  cases Γ <;> rfl

theorem scopesOf_introduced (Γ : List Layer) (names : List Token) :
    scopesOf (introduced Γ names) = withNames (scopesOf Γ) names := by
  cases Γ <;> rfl

theorem binds_insert {α : Type} (b : Bindings α) (key name : String) (v : α) :
    (b.insert key v).binds name = (decide (name = key) || b.binds name) := by
  by_cases h : name = key
  · subst h
    simp [Bindings.binds]
  · simp [Bindings.binds, Bindings.find?_insert_of_ne h, h]

theorem binds_withDefined (scope : Bindings Stage) (names : List Token) (x : String) :
    (withDefined scope names).binds x = true ↔
      scope.binds x = true ∨ x ∈ names.map Token.lexeme := by
  rw [Bindings.binds, stage_withDefined]
  split
  · next hx => exact iff_of_true rfl (.inr hx)
  · next hx => exact (or_iff_left hx).symm

theorem binds_withDefined_of_ne (scope : Bindings Stage) {names : List Token} {x : String}
    (h : ∀ name ∈ names, name.lexeme ≠ x) : (withDefined scope names).binds x = scope.binds x := by
  refine Bool.eq_iff_iff.mpr ((binds_withDefined scope names x).trans (or_iff_left fun hx => ?_))
  obtain ⟨name, hname, heq⟩ := List.mem_map.mp hx
  exact h name hname heq

theorem binds_insert_of_ne {α : Type} (b : Bindings α) {key name : String} (h : key ≠ name) (v : α) :
    (b.insert key v).binds name = b.binds name := by
  rw [binds_insert, decide_eq_false (Ne.symm h), Bool.false_or]

theorem depthIn_cons (L : Layer) (Γ : List Layer) (name : String) :
    depthIn (L :: Γ) name = if L.names.binds name then some 0 else (depthIn Γ name).map (· + 1) :=
  List.findIdx?_cons

/-- The depth of a name only depends on whether it is declared in each scope. -/
theorem depthIn_congr {L L' : Layer} {name : String} (h : L'.names.binds name = L.names.binds name)
    (Γ : List Layer) : depthIn (L' :: Γ) name = depthIn (L :: Γ) name := by
  rw [depthIn_cons, depthIn_cons, h]

theorem depthIn_introduced (Γ : List Layer) {names : List Token} {x : String}
    (h : ∀ name ∈ names, name.lexeme ≠ x) : depthIn (introduced Γ names) x = depthIn Γ x := by
  cases Γ with
  | nil => rfl
  | cons L Γ => exact depthIn_congr (binds_withDefined_of_ne L.names h) Γ

theorem depthIn_started (Γ : List Layer) {name : Token} {x : String} (h : name.lexeme ≠ x) :
    depthIn (started Γ name) x = depthIn Γ x := by
  cases Γ with
  | nil => rfl
  | cons L Γ => exact depthIn_congr (binds_insert_of_ne L.names h _) Γ

/-! ### Receivers -/

/-- The method whose receiver a scope holds. -/
def Layer.method? (L : Layer) : Option FunctionDecl :=
  match L.site? with
  | some (.receiver f) => some f
  | _ => none

/-- The innermost method around a place. -/
def methodIn (Γ : List Layer) : Option FunctionDecl := Γ.findSome? Layer.method?

theorem method?_ofBlock (body : List Stmt) : (Layer.ofBlock body).method? = none := by
  unfold Layer.method? Layer.ofBlock
  split
  · next heq => split at heq <;> cases heq
  · rfl

theorem method?_congr {L L' : Layer} (h : L'.site? = L.site?) : L'.method? = L.method? := by
  rw [Layer.method?, Layer.method?, h]

/-- The scope of a receiver lies right around the scope of its method, and no other scope has a
receiver. -/
inductive Nested : List Layer → Prop
  | nil : Nested []
  | scope {L : Layer} {Γ : List Layer} (hL : L.names.binds selfName = false)
      (hmethod : L.method? = none) (hΓ : Nested Γ) : Nested (L :: Γ)
  | method {L : Layer} {f : FunctionDecl} {Γ : List Layer} (hL : L.names.binds selfName = false)
      (hsite : L.site? = some (.call f)) (hΓ : Nested Γ) : Nested (L :: .receiver f :: Γ)

/-- A further name other than that of the receiver in the innermost scope. -/
theorem Nested.congr {L L' : Layer} {Γ : List Layer} (h : Nested (L :: Γ))
    (hsite : L'.site? = L.site?) (hbinds : L'.names.binds selfName = L.names.binds selfName) :
    Nested (L' :: Γ) := by
  cases h with
  | scope hL hmethod hΓ => exact .scope (hbinds.trans hL) ((method?_congr hsite).trans hmethod) hΓ
  | method hL hsite' hΓ => exact .method (hbinds.trans hL) (hsite.trans hsite') hΓ

theorem Nested.introduced {Γ : List Layer} (h : Nested Γ) {names : List Token}
    (hnames : ∀ name ∈ names, name.lexeme ≠ selfName) : Nested (introduced Γ names) := by
  cases Γ with
  | nil => exact h
  | cons L Γ => exact h.congr rfl (binds_withDefined_of_ne L.names hnames)

theorem Nested.started {Γ : List Layer} (h : Nested Γ) {name : Token}
    (hname : name.lexeme ≠ selfName) : Nested (started Γ name) := by
  cases Γ with
  | nil => exact h
  | cons L Γ => exact h.congr rfl (binds_insert_of_ne L.names hname _)

/-- The nearest receiver is that of the innermost method. -/
theorem Nested.inMethod {Γ : List Layer} (h : Nested Γ) {d : Nat}
    (hd : depthIn Γ selfName = some d) :
    ∃ Γ₁ L f Γ₂, Γ = Γ₁ ++ L :: .receiver f :: Γ₂ ∧ L.site? = some (.call f) ∧
      d = Γ₁.length + 1 ∧ methodIn Γ = some f := by
  induction h generalizing d with
  | nil => cases hd
  | @scope L Γ hL hmethod _ ih =>
    rw [depthIn_cons, if_neg (Bool.eq_false_iff.mp hL)] at hd
    obtain ⟨d', hd', rfl⟩ := Option.map_eq_some_iff.mp hd
    obtain ⟨Γ₁, L', f, Γ₂, rfl, hsite, rfl, hinner⟩ := ih hd'
    refine ⟨L :: Γ₁, L', f, Γ₂, rfl, hsite, rfl, ?_⟩
    rw [methodIn, List.findSome?_cons, hmethod]
    exact hinner
  | @method L f Γ hL hsite _ _ =>
    rw [depthIn_cons, if_neg (Bool.eq_false_iff.mp hL)] at hd
    obtain ⟨d', hd', rfl⟩ := Option.map_eq_some_iff.mp hd
    cases hd'
    refine ⟨[], L, f, Γ, rfl, hsite, rfl, ?_⟩
    have hmethod : L.method? = none := by rw [Layer.method?, hsite]
    rw [methodIn, List.findSome?_cons, hmethod]
    rfl

theorem ofBlock_of_declaredBy {body : List Stmt} (h : declaredBy body = []) :
    Layer.ofBlock body = ⟨none, []⟩ := by
  rw [Layer.ofBlock, h]
  rfl

end Scope

open Scope

mutual

/-- The scopes around the occurrence with the number `id`, and the name there. -/
def Expr.around (id : Nat) : Expr → List Layer → Option (List Layer × String)
  | .literal _, _ => none
  | .unary _ operand, Γ => operand.around id Γ
  | .binary left _ right, Γ => left.around id Γ <|> right.around id Γ
  | .group inner, Γ => inner.around id Γ
  | .logical left _ right, Γ => left.around id Γ <|> right.around id Γ
  | .conditional test yes no, Γ => test.around id Γ <|> (yes.around id Γ <|> no.around id Γ)
  | .var i name, Γ => if i = id then some (Γ, name.lexeme) else none
  | .assign i name value, Γ => if i = id then some (Γ, name.lexeme) else value.around id Γ
  | .call callee _ arguments, Γ => callee.around id Γ <|> aroundExprs id arguments Γ
  | .lambda decl, Γ => decl.around id Γ
  | .array _ elements, Γ => aroundExprs id elements Γ
  | .index _ base key, Γ => base.around id Γ <|> key.around id Γ
  | .indexSet _ base key value, Γ => base.around id Γ <|> (key.around id Γ <|> value.around id Γ)
  | .get object _, Γ => object.around id Γ
  | .set object _ value, Γ => object.around id Γ <|> value.around id Γ
  | .self i _, Γ => if i = id then some (Γ, selfName) else none

def aroundExprs (id : Nat) : List Expr → List Layer → Option (List Layer × String)
  | [], _ => none
  | e :: es, Γ => e.around id Γ <|> aroundExprs id es Γ

/-- The same for a statement. The step of a loop counts where it ends the body. -/
def Stmt.around (id : Nat) : Stmt → List Layer → Option (List Layer × String)
  | .expression expr, Γ => expr.around id Γ
  | .print expr, Γ => expr.around id Γ
  | .var _ none, _ => none
  | .var name (some value), Γ => value.around id (started Γ name)
  | .block body, Γ => aroundStmts id body (.ofBlock body :: Γ)
  | .ifElse test yes none, Γ => test.around id Γ <|> yes.around id Γ
  | .ifElse test yes (some no), Γ =>
    test.around id Γ <|> (yes.around id Γ <|> no.around id Γ)
  | .loop test body _, Γ => test.around id Γ <|> body.around id Γ
  | .exitLoop _, _ => none
  | .nextIteration _, _ => none
  | .function decl, Γ => decl.around id (introduced Γ decl.name?.toList)
  | .result _ none, _ => none
  | .result _ (some value), Γ => value.around id Γ
  | .classDecl name methods, Γ => aroundMethods id methods (introduced Γ [name])

def aroundStmts (id : Nat) : List Stmt → List Layer → Option (List Layer × String)
  | [], _ => none
  | s :: ss, Γ => s.around id Γ <|> aroundStmts id ss (introduced Γ (declared s))

def FunctionDecl.around (id : Nat) : FunctionDecl → List Layer → Option (List Layer × String)
  | ⟨name?, params, body⟩, Γ => aroundStmts id body (.ofCall ⟨name?, params, body⟩ :: Γ)

/-- Around each method of a class lies the scope of its receiver. -/
def aroundMethods (id : Nat) : List FunctionDecl → List Layer → Option (List Layer × String)
  | [], _ => none
  | f :: fs, Γ => f.around id (.receiver f :: Γ) <|> aroundMethods id fs Γ

end

attribute [simp] Expr.around aroundExprs Stmt.around aroundStmts FunctionDecl.around aroundMethods

/-! ### Numbers that do not occur -/

/-- A loop has the numbers of its test and of its body. -/
theorem Stmt.mem_ids_loop {id : Nat} {test : Expr} {body : Stmt} {step : Option Stmt} :
    id ∈ (Stmt.loop test body step).ids ↔ id ∈ test.ids ∨ id ∈ body.ids := by
  cases step with
  | none => rw [Stmt.ids, List.mem_append]
  | some s =>
    by_cases h : ∃ b e, body = .block [b, .expression e]
    · obtain ⟨b, e, rfl⟩ := h
      simp [or_comm]
    · rw [Stmt.ids, List.mem_append]
      rintro b e rfl
      exact h ⟨b, e, rfl⟩

/-- What is found in neither of two pieces is not found in both together. -/
theorem orElse_eq_none {α : Type} {x y : Option α} (hx : x = none) (hy : y = none) :
    (x <|> y) = none := by
  rw [hx, hy]
  rfl

theorem orElse_eq_left {α : Type} {x y : Option α} (hy : y = none) : (x <|> y) = x := by
  rw [hy]
  cases x <;> rfl

theorem orElse_eq_right {α : Type} {x y : Option α} (hx : x = none) : (x <|> y) = y := by
  rw [hx]
  rfl

mutual

theorem Expr.around_of_not_mem {id : Nat} (e : Expr) (Γ : List Layer) (h : id ∉ e.ids) :
    e.around id Γ = none := by
  match e with
  | .literal _ => rfl
  | .unary _ operand => exact operand.around_of_not_mem Γ h
  | .group inner => exact inner.around_of_not_mem Γ h
  | .binary left _ right =>
    obtain ⟨hleft, hright⟩ := not_or.mp (mt List.mem_append.mpr h)
    exact orElse_eq_none (left.around_of_not_mem Γ hleft) (right.around_of_not_mem Γ hright)
  | .logical left _ right =>
    obtain ⟨hleft, hright⟩ := not_or.mp (mt List.mem_append.mpr h)
    exact orElse_eq_none (left.around_of_not_mem Γ hleft) (right.around_of_not_mem Γ hright)
  | .conditional test yes no =>
    obtain ⟨htest, h⟩ := not_or.mp (mt List.mem_append.mpr h)
    obtain ⟨hyes, hno⟩ := not_or.mp (mt List.mem_append.mpr h)
    exact orElse_eq_none (test.around_of_not_mem Γ htest)
      (orElse_eq_none (yes.around_of_not_mem Γ hyes) (no.around_of_not_mem Γ hno))
  | .var i name => exact if_neg fun hi => h (by simp [hi])
  | .self i keyword => exact if_neg fun hi => h (by simp [hi])
  | .assign i name value =>
    obtain ⟨hi, hvalue⟩ := not_or.mp (mt List.mem_cons.mpr h)
    exact (if_neg (Ne.symm hi)).trans (value.around_of_not_mem Γ hvalue)
  | .call callee _ arguments =>
    obtain ⟨hcallee, harguments⟩ := not_or.mp (mt List.mem_append.mpr h)
    exact orElse_eq_none (callee.around_of_not_mem Γ hcallee)
      (aroundExprs_of_not_mem arguments Γ harguments)
  | .lambda decl => exact decl.around_of_not_mem Γ h
  | .array _ elements => exact aroundExprs_of_not_mem elements Γ h
  | .index _ base key =>
    obtain ⟨hbase, hkey⟩ := not_or.mp (mt List.mem_append.mpr h)
    exact orElse_eq_none (base.around_of_not_mem Γ hbase) (key.around_of_not_mem Γ hkey)
  | .indexSet _ base key value =>
    obtain ⟨hbase, h⟩ := not_or.mp (mt List.mem_append.mpr h)
    obtain ⟨hkey, hvalue⟩ := not_or.mp (mt List.mem_append.mpr h)
    exact orElse_eq_none (base.around_of_not_mem Γ hbase)
      (orElse_eq_none (key.around_of_not_mem Γ hkey) (value.around_of_not_mem Γ hvalue))
  | .get object _ => exact object.around_of_not_mem Γ h
  | .set object _ value =>
    obtain ⟨hobject, hvalue⟩ := not_or.mp (mt List.mem_append.mpr h)
    exact orElse_eq_none (object.around_of_not_mem Γ hobject) (value.around_of_not_mem Γ hvalue)

theorem aroundExprs_of_not_mem {id : Nat} (es : List Expr) (Γ : List Layer)
    (h : id ∉ idsOfExprs es) : aroundExprs id es Γ = none := by
  match es with
  | [] => rfl
  | e :: es =>
    obtain ⟨he, hes⟩ := not_or.mp (mt List.mem_append.mpr h)
    exact orElse_eq_none (e.around_of_not_mem Γ he) (aroundExprs_of_not_mem es Γ hes)

theorem Stmt.around_of_not_mem {id : Nat} (s : Stmt) (Γ : List Layer) (h : id ∉ s.ids) :
    s.around id Γ = none := by
  match s with
  | .var _ none | .exitLoop _ | .nextIteration _ | .result _ none => rfl
  | .expression expr => exact expr.around_of_not_mem Γ h
  | .print expr => exact expr.around_of_not_mem Γ h
  | .var name (some value) => exact value.around_of_not_mem _ h
  | .block body => exact aroundStmts_of_not_mem body _ h
  | .ifElse test yes none =>
    obtain ⟨htest, hyes⟩ := not_or.mp (mt List.mem_append.mpr h)
    exact orElse_eq_none (test.around_of_not_mem Γ htest) (yes.around_of_not_mem Γ hyes)
  | .ifElse test yes (some no) =>
    obtain ⟨htest, h⟩ := not_or.mp (mt List.mem_append.mpr h)
    obtain ⟨hyes, hno⟩ := not_or.mp (mt List.mem_append.mpr h)
    exact orElse_eq_none (test.around_of_not_mem Γ htest)
      (orElse_eq_none (yes.around_of_not_mem Γ hyes) (no.around_of_not_mem Γ hno))
  | .loop test body step =>
    obtain ⟨htest, hbody⟩ := not_or.mp (mt Stmt.mem_ids_loop.mpr h)
    exact orElse_eq_none (test.around_of_not_mem Γ htest) (body.around_of_not_mem Γ hbody)
  | .function decl => exact decl.around_of_not_mem _ h
  | .result _ (some value) => exact value.around_of_not_mem Γ h
  | .classDecl name methods => exact aroundMethods_of_not_mem methods _ h

theorem aroundStmts_of_not_mem {id : Nat} (ss : List Stmt) (Γ : List Layer)
    (h : id ∉ idsOfStmts ss) : aroundStmts id ss Γ = none := by
  match ss with
  | [] => rfl
  | s :: ss =>
    obtain ⟨hs, hss⟩ := not_or.mp (mt List.mem_append.mpr h)
    exact orElse_eq_none (s.around_of_not_mem Γ hs) (aroundStmts_of_not_mem ss _ hss)

theorem FunctionDecl.around_of_not_mem {id : Nat} (f : FunctionDecl) (Γ : List Layer)
    (h : id ∉ f.ids) : f.around id Γ = none := by
  match f with
  | ⟨name?, params, body⟩ => exact aroundStmts_of_not_mem body _ h

theorem aroundMethods_of_not_mem {id : Nat} (fs : List FunctionDecl) (Γ : List Layer)
    (h : id ∉ idsOfFunctions fs) : aroundMethods id fs Γ = none := by
  match fs with
  | [] => rfl
  | f :: fs =>
    obtain ⟨hf, hfs⟩ := not_or.mp (mt List.mem_append.mpr h)
    exact orElse_eq_none (f.around_of_not_mem _ hf) (aroundMethods_of_not_mem fs Γ hfs)

end

end Roteiro
