import Roteiro.Proofs.Scope.Recorded

/-!
# Trees in their place

`Placed P` collects what has to be known of a tree, and of every tree inside of it, before it can be
run: declarations stand in the scope they declare a name in; the receiver is only used inside of a
method; and `P` holds of every occurrence of a name with the scopes around it.

What the analysis gives is `Occurs σ`. The scopes around an occurrence are those that `σ` has for
its number; they declare no name twice, and the names that are known at a place come from
declarations in front of it; only inside of an initializer is a name known whose value is not
complete.

* `placedStmts_of_silent`: a tidy program without complaints is in its place.
* `placedStmts_mono`: a program stays in its place when more is known of its occurrences.
-/

namespace Roteiro

open Scope Analysis

namespace Scope

/-! ### New names -/

/-- A name that is not complete was not complete before, and has not been introduced. -/
theorem find?_withDefined {scope : Bindings Stage} {names : List Token} {x : String}
    (h : (withDefined scope names).find? x = some .declared) :
    scope.find? x = some .declared := by
  rw [stage_withDefined] at h
  split at h
  · cases h
  · exact h

/-- `News scope names`: the names differ from one another and from those of the scope. -/
structure News (scope : Bindings Stage) (names : List Token) : Prop where
  nodup : (names.map Token.lexeme).Nodup
  new : ∀ x ∈ names.map Token.lexeme, scope.binds x = false

theorem News.nil (scope : Bindings Stage) : News scope [] :=
  ⟨List.nodup_nil, fun _ h => by cases h⟩

theorem News.single {scope : Bindings Stage} {name : Token} (h : scope.binds name.lexeme = false) :
    News scope [name] := by
  refine ⟨by simp, fun x hx => ?_⟩
  cases List.mem_singleton.mp hx
  exact h

theorem News.append {scope : Bindings Stage} {xs ys : List Token} (hx : News scope xs)
    (hy : News (withDefined scope xs) ys) : News scope (xs ++ ys) := by
  have hy' : ∀ x ∈ ys.map Token.lexeme,
      scope.binds x = false ∧ x ∉ xs.map Token.lexeme := by
    intro x hmem
    have hnot := mt (binds_withDefined scope xs x).mpr (Bool.eq_false_iff.mp (hy.new x hmem))
    exact ⟨Bool.eq_false_iff.mpr fun h => hnot (.inl h), fun h => hnot (.inr h)⟩
  constructor
  · rw [List.map_append]
    refine List.nodup_append.mpr ⟨hx.nodup, hy.nodup, ?_⟩
    rintro x hmem _ hmem' rfl
    exact (hy' x hmem').2 hmem
  · intro x hmem
    rw [List.map_append] at hmem
    rcases List.mem_append.mp hmem with hmem | hmem
    · exact hx.new x hmem
    · exact (hy' x hmem).1

/-- A name that is declared without a complaint is new. -/
theorem news_of_declare {a : Analysis} {scope : Bindings Stage} {outer : List (Bindings Stage)}
    (hscopes : a.scopes = scope :: outer) {name : Token}
    (h : (a.declare name).reports = #[]) : News scope [name] := by
  refine .single (Bool.eq_false_iff.mpr fun hbound => ?_)
  unfold declare at h
  rw [hscopes] at h
  simp [hbound, complain] at h

theorem news_of_introduceAll {names : List Token} {a : Analysis} {scope : Bindings Stage}
    {outer : List (Bindings Stage)} (hscopes : a.scopes = scope :: outer)
    (h : (names.foldl introduce a).reports = #[]) : News scope names := by
  induction names generalizing a scope with
  | nil => exact .nil scope
  | cons name names ih =>
    have hname : (a.introduce name).reports = #[] :=
      (later_introduceAll names (a.introduce name)).ahead.silent h
    have hnew := news_of_declare hscopes ((later_define _ name).ahead.silent hname)
    have hscopes' : (a.introduce name).scopes = withDefined scope [name] :: outer := by
      rw [scopes_introduce, hscopes]
      rfl
    exact hnew.append (ih hscopes' h)

/-- What a tidy statement declares without a complaint is new. -/
theorem news_of_stmt {s : Stmt} (htidy : s.Tidy) {a : Analysis} {scope : Bindings Stage}
    {outer : List (Bindings Stage)} (hscopes : a.scopes = scope :: outer)
    (h : (resolveStmt s a).reports = #[]) : News scope (declared s) := by
  cases s with
  | var name e? =>
    cases e? with
    | none => exact news_of_declare hscopes ((later_define _ name).ahead.silent h)
    | some e =>
      have hvalue := (later_define _ name).ahead.silent h
      exact news_of_declare hscopes ((resolveExpr_later e _).ahead.silent hvalue)
  | function decl =>
    unfold resolveStmt at h
    have hname := (resolveFunction_later decl _ _).ahead.silent h
    unfold declared
    cases hdecl : decl.name? with
    | none => exact .nil scope
    | some name =>
      rw [hdecl] at hname
      exact news_of_declare hscopes ((later_define _ name).ahead.silent hname)
  | classDecl name methods =>
    have hmethods : (({ a with inClass := true }.introduce name).openScope
        [(selfName, .defined)]).reports = #[] := (resolveMethods_later methods _).ahead.silent h
    exact news_of_declare (a := { a with inClass := true }) hscopes
      ((later_define _ name).ahead.silent hmethods)
  | ifElse test yes no? =>
    cases no? with
    | none =>
      rw [declared, htidy.2.2]
      exact .nil scope
    | some no =>
      rw [declared, htidy.2.1.2, htidy.2.2.2]
      exact .nil scope
  | loop test body step? =>
    cases step? with
    | none =>
      rw [declared, htidy.2.2]
      exact .nil scope
    | some step =>
      obtain ⟨b, e, rfl, -⟩ := htidy.loop
      exact .nil scope
  | _ => exact .nil scope

theorem news_of_stmts {ss : List Stmt} (htidy : tidyStmts ss) {a : Analysis}
    {scope : Bindings Stage} {outer : List (Bindings Stage)} (hscopes : a.scopes = scope :: outer)
    (h : (resolveStmts ss a).reports = #[]) : News scope (declaredBy ss) := by
  induction ss generalizing a scope with
  | nil => exact .nil scope
  | cons s ss ih =>
    have hs : (resolveStmt s a).reports = #[] := (resolveStmts_later ss _).ahead.silent h
    have hscopes' : (resolveStmt s a).scopes = withDefined scope (declared s) :: outer := by
      rw [scopes_resolveStmt, hscopes]
      rfl
    exact (news_of_stmt htidy.1 hscopes hs).append (ih htidy.2 hscopes' h)

/-! ### Sound scopes -/

theorem Site.mem_names {S : Site} {s : Stmt} (hs : s ∈ S.statements) {name : Token}
    (hname : name ∈ declared s) : name ∈ S.names := by
  have hmem : name ∈ declaredBy S.statements := List.mem_flatMap.mpr ⟨s, hs, hname⟩
  cases S with
  | block body => exact hmem
  | call decl => exact List.mem_append_right _ hmem
  | receiver method => cases hs

/-- What has to hold of a scope around the occurrence `id`. -/
structure Layer.Sound (id : Nat) (L : Layer) : Prop where
  /-- The occurrence stands in it. -/
  holds : ∀ S, L.site? = some S → id ∈ S.ids
  /-- Its names are declared in it. -/
  named : ∀ x, L.names.binds x = true →
    x = selfName ∨ ∃ S, L.site? = some S ∧ x ∈ S.names.map Token.lexeme
  /-- It declares no name twice. -/
  distinct : ∀ S, L.site? = some S → (S.names.map Token.lexeme).Nodup
  /-- A name that is not complete is that of a variable whose initializer holds the occurrence. -/
  pending : ∀ x, L.names.find? x = some .declared →
    ∃ S name e, L.site? = some S ∧ .var name (some e) ∈ S.statements ∧ name.lexeme = x ∧ id ∈ e.ids

variable {id : Nat} {L : Layer} {Γ : List Layer}

theorem Layer.Sound.introduce (h : L.Sound id) {names : List Token}
    (hnames : ∀ name ∈ names, ∃ S, L.site? = some S ∧ name ∈ S.names) :
    (L.introduce names).Sound id := by
  refine ⟨h.holds, fun x hx => ?_, h.distinct, fun x hx => h.pending x (find?_withDefined hx)⟩
  rcases (binds_withDefined L.names names x).mp hx with hx | hx
  · exact h.named x hx
  · obtain ⟨name, hname, rfl⟩ := List.mem_map.mp hx
    obtain ⟨S, hS, hmem⟩ := hnames name hname
    exact .inr ⟨S, hS, List.mem_map_of_mem hmem⟩

/-- Inside of the initializer of a variable its name is not complete. -/
theorem Layer.Sound.start (h : L.Sound id) {S : Site} (hS : L.site? = some S) {name : Token}
    {e : Expr} (hs : Stmt.var name (some e) ∈ S.statements) (hid : id ∈ e.ids) :
    Layer.Sound id { L with names := L.names.insert name.lexeme .declared } := by
  refine ⟨h.holds, fun x hx => ?_, h.distinct, fun x hx => ?_⟩
  · rw [binds_insert, Bool.or_eq_true, decide_eq_true_eq] at hx
    rcases hx with rfl | hx
    · exact .inr ⟨S, hS, List.mem_map_of_mem (S.mem_names hs (List.mem_singleton.mpr rfl))⟩
    · exact h.named x hx
  · by_cases hname : x = name.lexeme
    · exact ⟨S, name, e, hS, hs, hname.symm, hid⟩
    · rw [Bindings.find?_insert_of_ne hname] at hx
      exact h.pending x hx

theorem site_ofBlock {body : List Stmt} {S : Site} (h : (Layer.ofBlock body).site? = some S) :
    S = .block body := by
  unfold Layer.ofBlock at h
  dsimp only at h
  split at h
  · cases h
  · exact (Option.some.inj h).symm

theorem sound_ofBlock {body : List Stmt} (h : News [] (declaredBy body))
    (hid : id ∈ idsOfStmts body) : (Layer.ofBlock body).Sound id := by
  refine ⟨fun S hS => ?_, nofun, fun S hS => ?_, nofun⟩
  · rwa [site_ofBlock hS]
  · rw [site_ofBlock hS]
    exact h.nodup

theorem sound_ofCall (decl : FunctionDecl) (h : News [] (decl.params ++ declaredBy decl.body))
    (hid : id ∈ decl.ids) : (Layer.ofCall decl).Sound id := by
  have hempty : Layer.Sound id ⟨some (.call decl), []⟩ := by
    refine ⟨fun S hS => ?_, nofun, fun S hS => ?_, nofun⟩
    · cases hS
      exact hid
    · cases hS
      exact h.nodup
  exact hempty.introduce fun name hname => ⟨.call decl, rfl, List.mem_append_left _ hname⟩

theorem sound_receiver {f : FunctionDecl} (hid : id ∈ f.ids) : (Layer.receiver f).Sound id := by
  refine ⟨fun S hS => ?_, fun x hx => .inl ?_, fun S hS => ?_, fun x hx => ?_⟩
  · cases hS
    exact hid
  · by_cases h : selfName = x
    · exact h.symm
    · simp [Layer.receiver, Bindings.binds, Bindings.find?, h] at hx
  · cases hS
    exact List.nodup_nil
  · by_cases h : selfName = x
    · simp [Layer.receiver, Bindings.find?, h] at hx
    · simp [Layer.receiver, Bindings.find?, h] at hx

/-- `Held s Γ`: a statement that declares a name stands in the innermost scope itself, and the name
is not that of the receiver. -/
structure Held (s : Stmt) (Γ : List Layer) : Prop where
  ne_self : ∀ name ∈ declared s, name.lexeme ≠ selfName
  site : declared s ≠ [] → ∀ L ∈ Γ.head?, ∃ S, L.site? = some S ∧ s ∈ S.statements

theorem Held.of_declared {s : Stmt} (h : declared s = []) (Γ : List Layer) : Held s Γ := by
  refine ⟨?_, fun hne => absurd h hne⟩
  rw [h]
  exact nofun

theorem Held.behind {s : Stmt} (h : Held s Γ) (names : List Token) :
    Held s (introduced Γ names) := by
  refine ⟨h.ne_self, fun hne L hL => ?_⟩
  cases Γ with
  | nil => cases hL
  | cons L' Γ =>
    cases hL
    exact h.site hne L' rfl

/-- The name under which a function is declared is not that of the receiver. -/
theorem Held.displayName {decl : FunctionDecl} (h : Held (.function decl) Γ) :
    decl.displayName ≠ selfName := by
  unfold FunctionDecl.displayName
  cases hname : decl.name? with
  | none => decide
  | some name => exact h.ne_self name (Option.mem_toList.mpr hname)

theorem held_global {s : Stmt} (hs : s.Tidy) : Held s [] := ⟨hs.ne_selfName, nofun⟩

theorem held_ofBlock {s : Stmt} (htidy : s.Tidy) {body : List Stmt} (hs : s ∈ body)
    (Γ : List Layer) : Held s (.ofBlock body :: Γ) := by
  refine ⟨htidy.ne_selfName, fun hne L hL => ?_⟩
  cases hL
  have hbody : (declaredBy body).isEmpty = false := by
    rw [Bool.eq_false_iff]
    intro hempty
    refine hne (List.eq_nil_iff_forall_not_mem.mpr fun name hname => ?_)
    have hmem : name ∈ declaredBy body := List.mem_flatMap.mpr ⟨s, hs, hname⟩
    rw [List.isEmpty_iff.mp hempty] at hmem
    cases hmem
  refine ⟨.block body, ?_, hs⟩
  simp [Layer.ofBlock, hbody]

theorem held_ofCall {s : Stmt} (htidy : s.Tidy) (decl : FunctionDecl) (hs : s ∈ decl.body)
    (Γ : List Layer) : Held s (.ofCall decl :: Γ) := by
  refine ⟨htidy.ne_selfName, fun hne L hL => ?_⟩
  cases hL
  exact ⟨.call decl, rfl, hs⟩

theorem Held.sound_introduced {s : Stmt} (h : Held s Γ) (hΓ : ∀ L ∈ Γ, L.Sound id) :
    ∀ L ∈ introduced Γ (declared s), L.Sound id := by
  cases Γ with
  | nil => exact hΓ
  | cons L Γ =>
    obtain ⟨hL, hΓ⟩ := List.forall_mem_cons.mp hΓ
    refine List.forall_mem_cons.mpr ⟨hL.introduce fun name hname => ?_, hΓ⟩
    obtain ⟨S, hS, hs⟩ := h.site (List.ne_nil_of_mem hname) L rfl
    exact ⟨S, hS, S.mem_names hs hname⟩

theorem Held.sound_started {name : Token} {e : Expr} (h : Held (.var name (some e)) Γ)
    (hΓ : ∀ L ∈ Γ, L.Sound id) (hid : id ∈ e.ids) : ∀ L ∈ started Γ name, L.Sound id := by
  cases Γ with
  | nil => exact hΓ
  | cons L Γ =>
    obtain ⟨hL, hΓ⟩ := List.forall_mem_cons.mp hΓ
    obtain ⟨S, hS, hs⟩ := h.site (List.cons_ne_nil _ _) L rfl
    exact List.forall_mem_cons.mpr ⟨hL.start hS hs hid, hΓ⟩

/-- The occurrence `id` of a name, as the source has it. -/
structure Occurs (σ : Nat → Option (List Layer × String)) (id : Nat) (Γ : List Layer)
    (name : String) : Prop where
  around : σ id = some (Γ, name)
  sound : ∀ L ∈ Γ, L.Sound id
  nested : Nested Γ

end Scope

mutual

/-- `P` holds of the occurrences in an expression and the scopes around them. -/
def Expr.Placed (P : Nat → List Layer → String → Prop) : Expr → List Layer → Prop
  | .literal _, _ => True
  | .unary _ operand, Γ => operand.Placed P Γ
  | .binary left _ right, Γ => left.Placed P Γ ∧ right.Placed P Γ
  | .group inner, Γ => inner.Placed P Γ
  | .logical left _ right, Γ => left.Placed P Γ ∧ right.Placed P Γ
  | .conditional test yes no, Γ => test.Placed P Γ ∧ (yes.Placed P Γ ∧ no.Placed P Γ)
  | .var id name, Γ => P id Γ name.lexeme ∧ name.lexeme ≠ selfName
  | .assign id name value, Γ => (P id Γ name.lexeme ∧ name.lexeme ≠ selfName) ∧ value.Placed P Γ
  | .call callee _ arguments, Γ => callee.Placed P Γ ∧ placedExprs P arguments Γ
  | .lambda decl, Γ => decl.Placed P Γ
  | .array _ elements, Γ => placedExprs P elements Γ
  | .index _ base key, Γ => base.Placed P Γ ∧ key.Placed P Γ
  | .indexSet _ base key value, Γ => base.Placed P Γ ∧ (key.Placed P Γ ∧ value.Placed P Γ)
  | .get object _, Γ => object.Placed P Γ
  | .set object _ value, Γ => object.Placed P Γ ∧ value.Placed P Γ
  | .self id _, Γ => P id Γ selfName ∧ (depthIn Γ selfName).isSome = true

def placedExprs (P : Nat → List Layer → String → Prop) : List Expr → List Layer → Prop
  | [], _ => True
  | e :: es, Γ => e.Placed P Γ ∧ placedExprs P es Γ

/-- The same for a statement, which stands in the scope that it declares a name in. -/
def Stmt.Placed (P : Nat → List Layer → String → Prop) : Stmt → List Layer → Prop
  | .expression expr, Γ => expr.Placed P Γ
  | .print expr, Γ => expr.Placed P Γ
  | .var name none, Γ => Held (.var name none) Γ
  | .var name (some value), Γ =>
    Held (.var name (some value)) Γ ∧ value.Placed P (started Γ name)
  | .block body, Γ => placedStmts P body (.ofBlock body :: Γ)
  | .ifElse test yes none, Γ => test.Placed P Γ ∧ (yes.Placed P Γ ∧ declared yes = [])
  | .ifElse test yes (some no), Γ =>
    test.Placed P Γ ∧ ((yes.Placed P Γ ∧ declared yes = []) ∧ (no.Placed P Γ ∧ declared no = []))
  | .loop test body none, Γ => test.Placed P Γ ∧ (body.Placed P Γ ∧ declared body = [])
  | .loop test body (some step), Γ =>
    test.Placed P Γ ∧ ((body.Placed P Γ ∧ declared body = []) ∧
      (step.Placed P (.ofBlock [step] :: Γ) ∧ declared step = []))
  | .exitLoop _, _ => True
  | .nextIteration _, _ => True
  | .function decl, Γ =>
    Held (.function decl) Γ ∧ decl.Placed P (introduced Γ decl.name?.toList)
  | .result _ none, _ => True
  | .result _ (some value), Γ => value.Placed P Γ
  | .classDecl name methods, Γ =>
    Held (.classDecl name methods) Γ ∧ placedMethods P methods (introduced Γ [name])

def placedStmts (P : Nat → List Layer → String → Prop) : List Stmt → List Layer → Prop
  | [], _ => True
  | s :: ss, Γ => s.Placed P Γ ∧ placedStmts P ss (introduced Γ (declared s))

def FunctionDecl.Placed (P : Nat → List Layer → String → Prop) : FunctionDecl → List Layer → Prop
  | ⟨name?, params, body⟩, Γ =>
    (∀ p ∈ params, p.lexeme ≠ selfName) ∧
      placedStmts P body (.ofCall ⟨name?, params, body⟩ :: Γ)

def placedMethods (P : Nat → List Layer → String → Prop) : List FunctionDecl → List Layer → Prop
  | [], _ => True
  | f :: fs, Γ => f.Placed P (.receiver f :: Γ) ∧ placedMethods P fs Γ

end

theorem FunctionDecl.placed_iff (P : Nat → List Layer → String → Prop) (f : FunctionDecl)
    (Γ : List Layer) : f.Placed P Γ ↔
      (∀ p ∈ f.params, p.lexeme ≠ selfName) ∧ placedStmts P f.body (.ofCall f :: Γ) := by
  cases f
  rw [FunctionDecl.Placed]

/-- Each of several methods is in its place. -/
theorem placed_of_mem {P : Nat → List Layer → String → Prop} {fs : List FunctionDecl}
    {Γ : List Layer} (h : placedMethods P fs Γ) {f : FunctionDecl} (hf : f ∈ fs) :
    f.Placed P (.receiver f :: Γ) := by
  induction fs with
  | nil => cases hf
  | cons g fs ih =>
    rcases List.mem_cons.mp hf with rfl | hf
    · exact h.1
    · exact ih h.2 hf

/-! ### More that is known -/

section Mono

variable {P Q : Nat → List Layer → String → Prop}

mutual

theorem Expr.Placed.mono (hPQ : ∀ id Γ name, P id Γ name → Q id Γ name) (e : Expr) {Γ : List Layer}
    (h : e.Placed P Γ) : e.Placed Q Γ := by
  match e with
  | .literal _ => trivial
  | .unary _ e | .group e | .get e _ => exact Expr.Placed.mono hPQ e h
  | .binary l _ r | .logical l _ r | .index _ l r | .set l _ r =>
    exact ⟨Expr.Placed.mono hPQ l h.1, Expr.Placed.mono hPQ r h.2⟩
  | .conditional e₁ e₂ e₃ | .indexSet _ e₁ e₂ e₃ =>
    exact ⟨Expr.Placed.mono hPQ e₁ h.1, Expr.Placed.mono hPQ e₂ h.2.1,
      Expr.Placed.mono hPQ e₃ h.2.2⟩
  | .var id name => exact ⟨hPQ _ _ _ h.1, h.2⟩
  | .assign id name value =>
    exact ⟨⟨hPQ _ _ _ h.1.1, h.1.2⟩, Expr.Placed.mono hPQ value h.2⟩
  | .call callee _ arguments =>
    exact ⟨Expr.Placed.mono hPQ callee h.1, placedExprs_mono hPQ arguments h.2⟩
  | .lambda decl => exact FunctionDecl.Placed.mono hPQ decl h
  | .array _ elements => exact placedExprs_mono hPQ elements h
  | .self id keyword => exact ⟨hPQ _ _ _ h.1, h.2⟩

theorem placedExprs_mono (hPQ : ∀ id Γ name, P id Γ name → Q id Γ name) (es : List Expr)
    {Γ : List Layer} (h : placedExprs P es Γ) : placedExprs Q es Γ := by
  match es with
  | [] => trivial
  | e :: es => exact ⟨Expr.Placed.mono hPQ e h.1, placedExprs_mono hPQ es h.2⟩

theorem Stmt.Placed.mono (hPQ : ∀ id Γ name, P id Γ name → Q id Γ name) (s : Stmt) {Γ : List Layer}
    (h : s.Placed P Γ) : s.Placed Q Γ := by
  match s with
  | .expression e | .print e | .result _ (some e) => exact Expr.Placed.mono hPQ e h
  | .var _ none => exact h
  | .exitLoop _ | .nextIteration _ | .result _ none => trivial
  | .var _ (some e) => exact ⟨h.1, Expr.Placed.mono hPQ e h.2⟩
  | .block body => exact placedStmts_mono hPQ body h
  | .ifElse test yes none | .loop test yes none =>
    exact ⟨Expr.Placed.mono hPQ test h.1, Stmt.Placed.mono hPQ yes h.2.1, h.2.2⟩
  | .ifElse test yes (some no) | .loop test yes (some no) =>
    exact ⟨Expr.Placed.mono hPQ test h.1, ⟨Stmt.Placed.mono hPQ yes h.2.1.1, h.2.1.2⟩,
      Stmt.Placed.mono hPQ no h.2.2.1, h.2.2.2⟩
  | .function decl => exact ⟨h.1, FunctionDecl.Placed.mono hPQ decl h.2⟩
  | .classDecl _ methods => exact ⟨h.1, placedMethods_mono hPQ methods h.2⟩

theorem placedStmts_mono (hPQ : ∀ id Γ name, P id Γ name → Q id Γ name) (ss : List Stmt)
    {Γ : List Layer} (h : placedStmts P ss Γ) : placedStmts Q ss Γ := by
  match ss with
  | [] => trivial
  | s :: ss => exact ⟨Stmt.Placed.mono hPQ s h.1, placedStmts_mono hPQ ss h.2⟩

theorem FunctionDecl.Placed.mono (hPQ : ∀ id Γ name, P id Γ name → Q id Γ name) (f : FunctionDecl)
    {Γ : List Layer} (h : f.Placed P Γ) : f.Placed Q Γ := by
  match f with
  | ⟨_, _, body⟩ => exact ⟨h.1, placedStmts_mono hPQ body h.2⟩

theorem placedMethods_mono (hPQ : ∀ id Γ name, P id Γ name → Q id Γ name) (fs : List FunctionDecl)
    {Γ : List Layer} (h : placedMethods P fs Γ) : placedMethods Q fs Γ := by
  match fs with
  | [] => trivial
  | f :: fs => exact ⟨FunctionDecl.Placed.mono hPQ f h.1, placedMethods_mono hPQ fs h.2⟩

end

end Mono

/-! ### Programs without complaints -/

namespace Scope

/-- `σ` has the numbers of a tree the way the tree is found to have them, and the scopes around the
tree are sound. -/
structure Known (σ : Nat → Option (List Layer × String)) (ids : List Nat)
    (find : Nat → Option (List Layer × String)) (Γ : List Layer) : Prop where
  found : ∀ id ∈ ids, σ id = find id
  sound : ∀ id ∈ ids, ∀ L ∈ Γ, L.Sound id

namespace Known

variable {σ find find' : Nat → Option (List Layer × String)} {ids ids' : List Nat}
  {Γ Γ' : List Layer}

theorem left (h : Known σ (ids ++ ids') (fun id => find id <|> find' id) Γ)
    (hnodup : (ids ++ ids').Nodup) (hfind' : ∀ id, id ∉ ids' → find' id = none) :
    Known σ ids find Γ := by
  refine ⟨fun id hid => ?_, fun id hid => h.sound id (List.mem_append_left _ hid)⟩
  have hid' : id ∉ ids' := fun hid' => (List.nodup_append.mp hnodup).2.2 id hid id hid' rfl
  exact (h.found id (List.mem_append_left _ hid)).trans (orElse_eq_left (hfind' id hid'))

theorem right (h : Known σ (ids ++ ids') (fun id => find id <|> find' id) Γ)
    (hnodup : (ids ++ ids').Nodup) (hfind : ∀ id, id ∉ ids → find id = none) :
    Known σ ids' find' Γ := by
  refine ⟨fun id hid => ?_, fun id hid => h.sound id (List.mem_append_right _ hid)⟩
  have hid' : id ∉ ids := fun hid' => (List.nodup_append.mp hnodup).2.2 id hid' id hid rfl
  exact (h.found id (List.mem_append_right _ hid)).trans (orElse_eq_right (hfind id hid'))

/-- Some of the numbers once more. -/
theorem again (h : Known σ ids find Γ) (hids : ∀ id ∈ ids', id ∈ ids)
    (hfind : ∀ id ∈ ids', find' id = find id) : Known σ ids' find' Γ :=
  ⟨fun id hid => (h.found id (hids id hid)).trans (hfind id hid).symm,
    fun id hid => h.sound id (hids id hid)⟩

theorem inside (h : Known σ ids find Γ) {L : Layer} (hL : ∀ id ∈ ids, L.Sound id) :
    Known σ ids find (L :: Γ) :=
  ⟨h.found, fun id hid => List.forall_mem_cons.mpr ⟨hL id hid, h.sound id hid⟩⟩

theorem behind (h : Known σ ids find Γ) {s : Stmt} (hs : Held s Γ) :
    Known σ ids find (introduced Γ (declared s)) :=
  ⟨h.found, fun id hid => hs.sound_introduced (h.sound id hid)⟩

/-- The parts of a loop, a step being found in the body that it ends. -/
theorem loop {test : Expr} {body : Stmt} {step? : Option Stmt}
    (h : Known σ (Stmt.loop test body step?).ids
      (fun id => test.around id Γ <|> body.around id Γ) Γ) :
    Known σ (test.ids ++ body.ids) (fun id => test.around id Γ <|> body.around id Γ) Γ :=
  h.again (fun _ hid => Stmt.mem_ids_loop.mpr (List.mem_append.mp hid)) fun _ _ => rfl

end Known

end Scope

variable {σ : Nat → Option (List Layer × String)}

mutual

theorem Expr.placed_of_silent (e : Expr) {a : Analysis} {Γ : List Layer}
    (hsilent : (resolveExpr e a).reports = #[]) (hΓ : Stands a Γ) (htidy : e.Tidy)
    (hnodup : e.ids.Nodup) (h : Known σ e.ids (fun id => e.around id Γ) Γ) :
    e.Placed (Occurs σ) Γ := by
  match e with
  | .literal _ => trivial
  | .unary _ operand => exact operand.placed_of_silent hsilent hΓ htidy hnodup h
  | .group inner => exact inner.placed_of_silent hsilent hΓ htidy hnodup h
  | .binary left _ right | .logical left _ right =>
    obtain ⟨hleft, hright, -⟩ := List.nodup_append.mp hnodup
    have hleftSilent := (resolveExpr_later right _).ahead.silent hsilent
    exact ⟨left.placed_of_silent hleftSilent hΓ htidy.1 hleft
        (h.left hnodup fun id => right.around_of_not_mem Γ),
      right.placed_of_silent hsilent (hΓ.expr left) htidy.2 hright
        (h.right hnodup fun id => left.around_of_not_mem Γ)⟩
  | .conditional test yes no =>
    obtain ⟨htest, hrest, -⟩ := List.nodup_append.mp hnodup
    obtain ⟨hyes, hno, -⟩ := List.nodup_append.mp hrest
    have hyesSilent := (resolveExpr_later no _).ahead.silent hsilent
    have htestSilent := (resolveExpr_later yes _).ahead.silent hyesSilent
    have hbranches := h.right hnodup fun id => test.around_of_not_mem Γ
    have htestKnown := h.left hnodup
      (unfound_append (fun id => yes.around_of_not_mem Γ) fun id => no.around_of_not_mem Γ)
    exact ⟨test.placed_of_silent htestSilent hΓ htidy.1 htest htestKnown,
      yes.placed_of_silent hyesSilent (hΓ.expr test) htidy.2.1 hyes
        (hbranches.left hrest fun id => no.around_of_not_mem Γ),
      no.placed_of_silent hsilent ((hΓ.expr test).expr yes) htidy.2.2 hno
        (hbranches.right hrest fun id => yes.around_of_not_mem Γ)⟩
  | .var id name =>
    have hid : id ∈ (Expr.var id name).ids := List.mem_singleton.mpr rfl
    exact ⟨⟨(h.found id hid).trans (if_pos rfl), h.sound id hid, hΓ.nested⟩, htidy⟩
  | .self id keyword =>
    have hid : id ∈ (Expr.self id keyword).ids := List.mem_singleton.mpr rfl
    refine ⟨⟨(h.found id hid).trans (if_pos rfl), h.sound id hid, hΓ.nested⟩, ?_⟩
    rw [← hΓ.inClass]
    refine Decidable.byContradiction fun hclass => ?_
    unfold resolveExpr at hsilent
    rw [if_neg hclass] at hsilent
    simp [complain] at hsilent
  | .assign id name value =>
    obtain ⟨hid, hvalue⟩ := List.nodup_cons.mp hnodup
    have hvalueSilent := (later_record _ id name.lexeme).ahead.silent hsilent
    refine ⟨⟨⟨(h.found id List.mem_cons_self).trans (if_pos rfl), h.sound id List.mem_cons_self,
      hΓ.nested⟩, htidy.1⟩, value.placed_of_silent hvalueSilent hΓ htidy.2 hvalue
        ⟨fun i hi => ?_, fun i hi => ?_⟩⟩
    · have hne : ¬id = i := fun heq => hid (heq ▸ hi)
      exact (h.found i (List.mem_cons_of_mem _ hi)).trans (if_neg hne)
    · exact h.sound i (List.mem_cons_of_mem _ hi)
  | .call callee _ arguments =>
    obtain ⟨hcallee, harguments, -⟩ := List.nodup_append.mp hnodup
    have hcalleeSilent := (resolveExprs_later arguments _).ahead.silent hsilent
    exact ⟨callee.placed_of_silent hcalleeSilent hΓ htidy.1 hcallee
        (h.left hnodup fun id => aroundExprs_of_not_mem arguments Γ),
      placedExprs_of_silent arguments hsilent (hΓ.expr callee) htidy.2 harguments
        (h.right hnodup fun id => callee.around_of_not_mem Γ)⟩
  | .lambda decl =>
    exact decl.placed_of_silent .function hsilent (hΓ.called .function htidy) htidy hnodup h
  | .array _ elements => exact placedExprs_of_silent elements hsilent hΓ htidy hnodup h
  | .index _ base key =>
    obtain ⟨hbase, hkey, -⟩ := List.nodup_append.mp hnodup
    have hbaseSilent := (resolveExpr_later key _).ahead.silent hsilent
    exact ⟨base.placed_of_silent hbaseSilent hΓ htidy.1 hbase
        (h.left hnodup fun id => key.around_of_not_mem Γ),
      key.placed_of_silent hsilent (hΓ.expr base) htidy.2 hkey
        (h.right hnodup fun id => base.around_of_not_mem Γ)⟩
  | .indexSet _ base key value =>
    obtain ⟨hbase, hrest, -⟩ := List.nodup_append.mp hnodup
    obtain ⟨hkey, hvalue, -⟩ := List.nodup_append.mp hrest
    have hkeySilent := (resolveExpr_later value _).ahead.silent hsilent
    have hbaseSilent := (resolveExpr_later key _).ahead.silent hkeySilent
    have hothers := h.right hnodup fun id => base.around_of_not_mem Γ
    have hbaseKnown := h.left hnodup
      (unfound_append (fun id => key.around_of_not_mem Γ) fun id => value.around_of_not_mem Γ)
    exact ⟨base.placed_of_silent hbaseSilent hΓ htidy.1 hbase hbaseKnown,
      key.placed_of_silent hkeySilent (hΓ.expr base) htidy.2.1 hkey
        (hothers.left hrest fun id => value.around_of_not_mem Γ),
      value.placed_of_silent hsilent ((hΓ.expr base).expr key) htidy.2.2 hvalue
        (hothers.right hrest fun id => key.around_of_not_mem Γ)⟩
  | .get object _ => exact object.placed_of_silent hsilent hΓ htidy hnodup h
  | .set object _ value =>
    obtain ⟨hobject, hvalue, -⟩ := List.nodup_append.mp hnodup
    have hobjectSilent := (resolveExpr_later value _).ahead.silent hsilent
    exact ⟨object.placed_of_silent hobjectSilent hΓ htidy.1 hobject
        (h.left hnodup fun id => value.around_of_not_mem Γ),
      value.placed_of_silent hsilent (hΓ.expr object) htidy.2 hvalue
        (h.right hnodup fun id => object.around_of_not_mem Γ)⟩

theorem placedExprs_of_silent (es : List Expr) {a : Analysis} {Γ : List Layer}
    (hsilent : (resolveExprs es a).reports = #[]) (hΓ : Stands a Γ) (htidy : tidyExprs es)
    (hnodup : (idsOfExprs es).Nodup)
    (h : Known σ (idsOfExprs es) (fun id => aroundExprs id es Γ) Γ) :
    placedExprs (Occurs σ) es Γ := by
  match es with
  | [] => trivial
  | e :: es =>
    obtain ⟨he, hes, -⟩ := List.nodup_append.mp hnodup
    have heSilent := (resolveExprs_later es _).ahead.silent hsilent
    exact ⟨e.placed_of_silent heSilent hΓ htidy.1 he
        (h.left hnodup fun id => aroundExprs_of_not_mem es Γ),
      placedExprs_of_silent es hsilent (hΓ.expr e) htidy.2 hes
        (h.right hnodup fun id => e.around_of_not_mem Γ)⟩

theorem Stmt.placed_of_silent (s : Stmt) {a : Analysis} {Γ : List Layer}
    (hsilent : (resolveStmt s a).reports = #[]) (hΓ : Stands a Γ) (htidy : s.Tidy)
    (hnodup : s.ids.Nodup) (hheld : Held s Γ)
    (h : Known σ s.ids (fun id => s.around id Γ) Γ) : s.Placed (Occurs σ) Γ := by
  match s with
  | .exitLoop _ | .nextIteration _ | .result _ none => trivial
  | .expression expr => exact expr.placed_of_silent hsilent hΓ htidy hnodup h
  | .print expr => exact expr.placed_of_silent hsilent hΓ htidy hnodup h
  | .var name none => exact hheld
  | .var name (some value) =>
    have hvalueSilent := (later_define _ name).ahead.silent hsilent
    refine ⟨hheld, value.placed_of_silent hvalueSilent (hΓ.declare htidy.1) htidy.2 hnodup
      ⟨h.found, fun id hid => ?_⟩⟩
    exact hheld.sound_started (h.sound id hid) hid
  | .block body =>
    have hnews : News [] (declaredBy body) := news_of_stmts htidy rfl hsilent
    exact placedStmts_of_silent body hsilent (hΓ.opened rfl (method?_ofBlock body)) htidy hnodup
      (fun s hs => held_ofBlock (tidy_of_mem htidy hs) hs Γ)
      (h.inside fun id hid => sound_ofBlock hnews hid)
  | .ifElse test yes none =>
    obtain ⟨htest, hyes, -⟩ := List.nodup_append.mp hnodup
    have htestSilent := (resolveStmt_later yes _).ahead.silent hsilent
    exact ⟨test.placed_of_silent htestSilent hΓ htidy.1 htest
        (h.left hnodup fun id => yes.around_of_not_mem Γ),
      yes.placed_of_silent hsilent (hΓ.expr test) htidy.2.1 hyes (.of_declared htidy.2.2 Γ)
        (h.right hnodup fun id => test.around_of_not_mem Γ), htidy.2.2⟩
  | .ifElse test yes (some no) =>
    obtain ⟨htest, hrest, -⟩ := List.nodup_append.mp hnodup
    obtain ⟨hyes, hno, -⟩ := List.nodup_append.mp hrest
    obtain ⟨htestTidy, ⟨hyesTidy, hyesNone⟩, hnoTidy, hnoNone⟩ := htidy
    have hyesSilent := (resolveStmt_later no _).ahead.silent hsilent
    have htestSilent := (resolveStmt_later yes _).ahead.silent hyesSilent
    have hbranches := h.right hnodup fun id => test.around_of_not_mem Γ
    have htestKnown := h.left hnodup
      (unfound_append (fun id => yes.around_of_not_mem Γ) fun id => no.around_of_not_mem Γ)
    exact ⟨test.placed_of_silent htestSilent hΓ htestTidy htest htestKnown,
      ⟨yes.placed_of_silent hyesSilent (hΓ.expr test) hyesTidy hyes (.of_declared hyesNone Γ)
        (hbranches.left hrest fun id => no.around_of_not_mem Γ), hyesNone⟩,
      no.placed_of_silent hsilent ((hΓ.expr test).plain hyesNone) hnoTidy hno
        (.of_declared hnoNone Γ) (hbranches.right hrest fun id => yes.around_of_not_mem Γ), hnoNone⟩
  | .loop test body none =>
    obtain ⟨htest, hbody, -⟩ := List.nodup_append.mp hnodup
    have htestSilent := (resolveStmt_later body (resolveExpr test a).enterLoop).ahead.silent hsilent
    exact ⟨test.placed_of_silent htestSilent hΓ htidy.1 htest
        (h.left hnodup fun id => body.around_of_not_mem Γ),
      body.placed_of_silent hsilent ((hΓ.expr test).congr rfl rfl) htidy.2.1 hbody
        (.of_declared htidy.2.2 Γ) (h.right hnodup fun id => test.around_of_not_mem Γ), htidy.2.2⟩
  | .loop test body (some step) =>
    have hstepped := htidy.stepped hnodup Γ
    have hknown := h.loop
    have hbodyKnown := hknown.right hstepped.nodup fun id => test.around_of_not_mem Γ
    obtain ⟨htest, hbody, -⟩ := List.nodup_append.mp hstepped.nodup
    have hΓ₁ : Stands (resolveExpr test a).enterLoop Γ := (hΓ.expr test).congr rfl rfl
    let c := (resolveStmt body (resolveExpr test a).enterLoop).leaveLoop
    have hc : Stands c Γ := (hΓ₁.plain hstepped.declared_body).congr rfl rfl
    have hbodySilent : c.reports = #[] :=
      (resolveStmt_later step (c.openScope [])).ahead.silent hsilent
    have htestSilent :=
      (resolveStmt_later body (resolveExpr test a).enterLoop).ahead.silent hbodySilent
    refine ⟨test.placed_of_silent htestSilent hΓ hstepped.tidy_test htest
        (hknown.left hstepped.nodup fun id => body.around_of_not_mem Γ),
      ⟨body.placed_of_silent hbodySilent hΓ₁ hstepped.tidy_body hbody
        (.of_declared hstepped.declared_body Γ) hbodyKnown, hstepped.declared_body⟩,
      step.placed_of_silent hsilent (hc.opened rfl (method?_ofBlock [step])) hstepped.tidy_step
        hstepped.nodup_step (.of_declared hstepped.declared_step _) ?_, hstepped.declared_step⟩
    have hnews : News [] (declaredBy [step]) := by
      simp only [declaredBy, List.flatMap_cons, hstepped.declared_step]
      exact .nil []
    exact (hbodyKnown.again hstepped.ids_step hstepped.around_step).inside
      fun id hid => sound_ofBlock hnews (List.mem_append_left _ hid)
  | .function decl =>
    have hΓ₁ : ∀ b : Analysis, b.scopes = withNames a.scopes decl.name?.toList →
        b.inClass = a.inClass → Stands b (introduced Γ decl.name?.toList) :=
      fun b hscopes hclass => hΓ.introduced htidy.ne_selfName hscopes hclass
    refine ⟨hheld, ?_⟩
    unfold resolveStmt at hsilent
    cases hname : decl.name? with
    | none =>
      rw [hname] at hsilent hΓ₁
      have hinside := hΓ₁ a (withNames_nil _).symm rfl
      exact decl.placed_of_silent .function hsilent (hinside.called .function htidy) htidy hnodup
        (hname ▸ h.behind hheld)
    | some name =>
      rw [hname] at hsilent hΓ₁
      have hinside := hΓ₁ (a.introduce name) (scopes_introduce a name) (later_introduce a name).inClass
      exact decl.placed_of_silent .function hsilent (hinside.called .function htidy) htidy hnodup
        (hname ▸ h.behind hheld)
  | .result keyword (some value) =>
    obtain ⟨b, hb, hscopes, hclass, -⟩ := resolveStmt_result keyword value a
    rw [hb] at hsilent
    exact value.placed_of_silent hsilent (hΓ.congr hscopes hclass) htidy hnodup h
  | .classDecl name methods =>
    obtain ⟨hscopes, hclass⟩ := hΓ.inside name
    exact ⟨hheld, placedMethods_of_silent methods hsilent hscopes hclass
      (hΓ.nested.introduced hheld.ne_self) htidy.2 hnodup (h.behind hheld)⟩

theorem placedStmts_of_silent (ss : List Stmt) {a : Analysis} {Γ : List Layer}
    (hsilent : (resolveStmts ss a).reports = #[]) (hΓ : Stands a Γ) (htidy : tidyStmts ss)
    (hnodup : (idsOfStmts ss).Nodup) (hheld : ∀ s ∈ ss, Held s Γ)
    (h : Known σ (idsOfStmts ss) (fun id => aroundStmts id ss Γ) Γ) :
    placedStmts (Occurs σ) ss Γ := by
  match ss with
  | [] => trivial
  | s :: ss =>
    obtain ⟨hs, hss, -⟩ := List.nodup_append.mp hnodup
    obtain ⟨hheldFirst, hheldOthers⟩ := List.forall_mem_cons.mp hheld
    have hsSilent := (resolveStmts_later ss _).ahead.silent hsilent
    have hothers := h.right hnodup fun id => s.around_of_not_mem Γ
    exact ⟨s.placed_of_silent hsSilent hΓ htidy.1 hs hheldFirst
        (h.left hnodup fun id => aroundStmts_of_not_mem ss _),
      placedStmts_of_silent ss hsilent (hΓ.stmt htidy.1) htidy.2 hss
        (fun t ht => (hheldOthers t ht).behind _) (hothers.behind hheldFirst)⟩

theorem FunctionDecl.placed_of_silent (f : FunctionDecl) (body : Body) {a : Analysis}
    {Γ : List Layer} (hsilent : (resolveFunction f body a).reports = #[])
    (hΓ : Stands (f.params.foldl introduce (a.enterFunction body)) (.ofCall f :: Γ)) (htidy : f.Tidy)
    (hnodup : f.ids.Nodup) (h : Known σ f.ids (fun id => f.around id Γ) Γ) :
    f.Placed (Occurs σ) Γ := by
  match f with
  | ⟨name?, params, statements⟩ =>
    let inside := params.foldl introduce (a.enterFunction body)
    have hstatements : (resolveStmts statements inside).reports = #[] := hsilent
    have hparams := (resolveStmts_later statements inside).ahead.silent hstatements
    have hscopes : inside.scopes = withDefined [] params :: a.scopes :=
      scopes_introduceAll params (a.enterFunction body)
    have hnews : News [] (params ++ declaredBy statements) :=
      (news_of_introduceAll (a := a.enterFunction body) rfl hparams).append
        (news_of_stmts htidy.2.2 hscopes hstatements)
    exact ⟨htidy.2.1, placedStmts_of_silent statements hstatements hΓ htidy.2.2 hnodup
      (fun s hs => held_ofCall (tidy_of_mem htidy.2.2 hs) ⟨name?, params, statements⟩ hs Γ)
      (h.inside fun id hid => sound_ofCall ⟨name?, params, statements⟩ hnews hid)⟩

theorem placedMethods_of_silent (fs : List FunctionDecl) {a : Analysis} {Γ : List Layer}
    (hsilent : (resolveMethods fs a).reports = #[])
    (hscopes : Alike a.scopes ([(selfName, .defined)] :: scopesOf Γ)) (hclass : a.inClass = true)
    (hnested : Nested Γ) (htidy : tidyMethods fs) (hnodup : (idsOfFunctions fs).Nodup)
    (h : Known σ (idsOfFunctions fs) (fun id => aroundMethods id fs Γ) Γ) :
    placedMethods (Occurs σ) fs Γ := by
  match fs with
  | [] => trivial
  | f :: fs =>
    obtain ⟨hf, hfs, -⟩ := List.nodup_append.mp hnodup
    have hfSilent := (resolveMethods_later fs _).ahead.silent hsilent
    have hlater := resolveFunction_later f (methodBody f) a
    have hfirst := h.left hnodup fun id => aroundMethods_of_not_mem fs Γ
    exact ⟨f.placed_of_silent (methodBody f) hfSilent (.method hscopes hclass hnested _ htidy.1)
        htidy.1 hf (hfirst.inside fun id hid => sound_receiver hid),
      placedMethods_of_silent fs hsilent (by rwa [scopes_resolveFunction])
        (hlater.inClass.trans hclass) hnested htidy.2 hfs
        (h.right hnodup fun id => f.around_of_not_mem _)⟩

end

end Roteiro
