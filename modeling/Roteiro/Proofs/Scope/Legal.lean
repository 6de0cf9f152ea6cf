import Roteiro.Proofs.Scope.Placed
import Roteiro.Proofs.Tree.Inside

/-!
# The programs that the analysis accepts

`Legal program` says what a program must satisfy, by the places of its parts alone: where a return,
the receiver, `pare` and `continue` may stand, that a local scope declares no name twice, and that
no local variable is read in its own initializer. The analysis accepts these programs and no others.

* `silent_resolveExpr`, `silent_resolveStmt` and their companions: there is no complaint about a
  piece of a tree exactly if everything in it stands at a place where it may.
* `accepted_iff_legal`: the analysis accepts exactly the legal programs.
-/

namespace Roteiro

/-! ### Names and places -/

mutual

/-- The names that an expression reads outside of all lambdas in it. -/
def Expr.reads : Expr → List Token
  | .literal _ => []
  | .unary _ operand => operand.reads
  | .binary left _ right => left.reads ++ right.reads
  | .group inner => inner.reads
  | .logical left _ right => left.reads ++ right.reads
  | .conditional test yes no => test.reads ++ (yes.reads ++ no.reads)
  | .var _ name => [name]
  | .assign _ _ value => value.reads
  | .call callee _ arguments => callee.reads ++ readsOfExprs arguments
  | .lambda _ => []
  | .array _ elements => readsOfExprs elements
  | .index _ base key => base.reads ++ key.reads
  | .indexSet _ base key value => base.reads ++ (key.reads ++ value.reads)
  | .get object _ => object.reads
  | .set object _ value => object.reads ++ value.reads
  | .self _ _ => []

/-- The names that several expressions read outside of all lambdas in them. -/
def readsOfExprs : List Expr → List Token
  | [] => []
  | e :: es => e.reads ++ readsOfExprs es

end

attribute [simp] Expr.reads readsOfExprs

namespace Around

/-- Whether the construct is the body of a function, a method or a lambda. -/
def isFunction : Around → Bool
  | .function _ => true
  | .method _ => true
  | _ => false

/-- Whether the construct has a scope of its own. -/
def isScope : Around → Bool
  | .loop => false
  | _ => true

end Around

namespace Scope

/-- Some function stands around the place. -/
def InFunction (Γ : List Around) : Prop := ∃ around ∈ Γ, around.isFunction

/-- The function around the place is a method that sets up a new instance. -/
def InInitializer (Γ : List Around) : Prop :=
  ∃ f name, Γ.find? Around.isFunction = some (.method f) ∧ f.name? = some name ∧
    name.lexeme = initializerName

/-- The body of a loop stands around the place, with no function in between. -/
def InLoop (Γ : List Around) : Prop := .loop ∈ Γ.takeWhile fun around => !around.isFunction

/-- Some local scope stands around the place. -/
def InScope (Γ : List Around) : Prop := ∃ around ∈ Γ, around.isScope

/-- No name stands twice in the list. -/
def Distinct (names : List Token) : Prop := (names.map Token.lexeme).Nodup

/-- The names that the body of a function declares in its scope: its parameters and those of its
statements. -/
def declaredIn (f : FunctionDecl) : List Token := f.params ++ declaredBy f.body

/-- The scopes that a node opens, each by the names it declares. -/
def scopesOpened : Node → List (List Token)
  | .stmt (.block body) => [declaredBy body]
  | .stmt (.loop _ _ (some step)) => [declared step]
  | .stmt (.function decl) => [declaredIn decl]
  | .stmt (.classDecl _ methods) => methods.map declaredIn
  | .expr (.lambda decl) => [declaredIn decl]
  | _ => []

/-- `Written program Γ node`: the node stands in the program, inside of the constructs `Γ`. -/
def Written (program : List Stmt) (Γ : List Around) (node : Node) : Prop :=
  ∃ s ∈ program, Node.Inside (.stmt s) Γ node

/-- The rules for a program. -/
structure Legal (program : List Stmt) : Prop where
  /-- A return stands in a function, and one with a value not in an initializer. -/
  result : ∀ {Γ keyword value?}, Written program Γ (.stmt (.result keyword value?)) →
    InFunction Γ ∧ (value?.isSome → ¬ InInitializer Γ)
  /-- The receiver stands in a class. -/
  receiver : ∀ {Γ id keyword}, Written program Γ (.expr (.self id keyword)) → .classBody ∈ Γ
  exitLoop : ∀ {Γ keyword}, Written program Γ (.stmt (.exitLoop keyword)) → InLoop Γ
  nextIteration : ∀ {Γ keyword}, Written program Γ (.stmt (.nextIteration keyword)) → InLoop Γ
  /-- No local scope declares a name twice. -/
  scope : ∀ {Γ node}, Written program Γ node → ∀ names ∈ scopesOpened node, Distinct names
  /-- A local variable is not read in its own initializer, except in a lambda. -/
  initializer : ∀ {Γ name value}, Written program Γ (.stmt (.var name (some value))) →
    InScope Γ → ∀ read ∈ value.reads, read.lexeme ≠ name.lexeme

/-! ### The rules at one place -/

/-- What the rules say about a node by itself. -/
def Fine (Γ : List Around) : Node → Prop
  | .stmt (.result _ value?) => InFunction Γ ∧ (value?.isSome → ¬ InInitializer Γ)
  | .expr (.self _ _) => .classBody ∈ Γ
  | .stmt (.exitLoop _) => InLoop Γ
  | .stmt (.nextIteration _) => InLoop Γ
  | .stmt (.var name (some value)) =>
    InScope Γ → ∀ read ∈ value.reads, read.lexeme ≠ name.lexeme
  | node => ∀ names ∈ scopesOpened node, Distinct names

theorem legal_iff {program : List Stmt} :
    Legal program ↔ ∀ s ∈ program, Everywhere Fine [] (.stmt s) := by
  constructor
  · intro h s hs Δ x hx
    have hwritten : Written program Δ x := ⟨s, hs, hx⟩
    rw [List.append_nil]
    unfold Fine
    split
    · exact h.result hwritten
    · exact h.receiver hwritten
    · exact h.exitLoop hwritten
    · exact h.nextIteration hwritten
    · exact h.initializer hwritten
    · exact h.scope hwritten
  · intro h
    have hfine : ∀ {Γ node}, Written program Γ node → Fine Γ node := by
      rintro Γ node ⟨s, hs, hx⟩
      simpa using h s hs hx
    refine ⟨hfine, hfine, hfine, hfine, fun {Γ node} hwritten => ?_, hfine⟩
    have hnode := hfine hwritten
    unfold Fine at hnode
    split at hnode
    case h_6 => exact hnode
    all_goals exact nofun

open Analysis

/-! ### Places of the analysis -/

/-- The kind of body that stands around a place. -/
def bodyAt (Γ : List Around) : Body :=
  match Γ.find? Around.isFunction with
  | some (.method f) => methodBody f
  | some _ => .function
  | none => .program

/-- `At a Γ`: the analysis is at a place with these constructs around it. -/
structure At (a : Analysis) (Γ : List Around) : Prop where
  body : a.body = bodyAt Γ
  inClass : a.inClass = true ↔ .classBody ∈ Γ
  loops : a.loops ≠ 0 ↔ InLoop Γ
  scopes : a.scopes ≠ [] ↔ InScope Γ

theorem At.start (depths : Depths) : At (.start depths) [] where
  body := rfl
  inClass := by simp [Analysis.start]
  loops := by simp [Analysis.start, InLoop]
  scopes := by simp [Analysis.start, InScope]

theorem bodyAt_cons {around : Around} (h : around.isFunction = false) (Γ : List Around) :
    bodyAt (around :: Γ) = bodyAt Γ := by
  rw [bodyAt, List.find?_cons_of_neg (by simp [h]), bodyAt]

theorem inLoop_cons {around : Around} {Γ : List Around} :
    InLoop (around :: Γ) ↔ around.isFunction = false ∧ (.loop = around ∨ InLoop Γ) := by
  unfold InLoop
  cases h : around.isFunction <;> simp [h]

theorem inScope_cons {around : Around} {Γ : List Around} :
    InScope (around :: Γ) ↔ around.isScope ∨ InScope Γ := by
  simp [InScope]

theorem methodBody_eq_initializer (f : FunctionDecl) :
    methodBody f = .initializer ↔
      ∃ name, f.name? = some name ∧ name.lexeme = initializerName := by
  have hlambda : "lambda" ≠ initializerName := by decide
  unfold methodBody FunctionDecl.displayName
  cases f.name? with
  | none => simp [hlambda]
  | some name => simp

theorem methodBody_ne_program (f : FunctionDecl) : methodBody f ≠ .program := by
  unfold methodBody
  split <;> exact nofun

theorem bodyAt_eq_program (Γ : List Around) : bodyAt Γ = .program ↔ ¬ InFunction Γ := by
  unfold bodyAt
  cases hfound : Γ.find? Around.isFunction with
  | none =>
    have hnone := List.find?_eq_none.mp hfound
    exact iff_of_true rfl fun ⟨around, hmem, hfunction⟩ => hnone around hmem hfunction
  | some around =>
    have hfunction : InFunction Γ :=
      ⟨around, List.mem_of_find?_eq_some hfound, List.find?_some hfound⟩
    refine iff_of_false ?_ (not_not_intro hfunction)
    cases around with
    | method f => exact methodBody_ne_program f
    | function | classBody | block | loop | step => exact nofun

theorem bodyAt_eq_initializer (Γ : List Around) : bodyAt Γ = .initializer ↔ InInitializer Γ := by
  unfold bodyAt InInitializer
  cases hfound : Γ.find? Around.isFunction with
  | none => simp
  | some around =>
    cases around with
    | method f => simp [methodBody_eq_initializer]
    | function | classBody | block | loop | step => simp

section At

variable {a a' : Analysis} {Γ : List Around}

/-- A later place, in a scope exactly if the earlier one is. -/
theorem At.later (h : At a Γ) (hlater : Later a a') (hscopes : a'.scopes = [] ↔ a.scopes = []) :
    At a' Γ where
  body := hlater.body.trans h.body
  inClass := by rw [hlater.inClass, h.inClass]
  loops := by rw [hlater.loops, h.loops]
  scopes := (not_congr hscopes).trans h.scopes

theorem withNames_eq_nil {scopes : List (Bindings Stage)} {names : List Token} :
    withNames scopes names = [] ↔ scopes = [] := by
  cases scopes <;> simp [withNames]

theorem At.expr (h : At a Γ) (e : Expr) : At (resolveExpr e a) Γ :=
  h.later (resolveExpr_later e a) (by rw [scopes_resolveExpr])

theorem At.stmt (h : At a Γ) (s : Stmt) : At (resolveStmt s a) Γ :=
  h.later (resolveStmt_later s a) (by rw [scopes_resolveStmt, withNames_eq_nil])

theorem At.introduce (h : At a Γ) (name : Token) : At (a.introduce name) Γ :=
  h.later (later_introduce a name) (by rw [scopes_introduce, withNames_eq_nil])

theorem At.introduceAll (h : At a Γ) (names : List Token) :
    At (names.foldl Analysis.introduce a) Γ :=
  h.later (later_introduceAll names a) (by rw [scopes_introduceAll, withNames_eq_nil])

theorem At.declare (h : At a Γ) (name : Token) : At (a.declare name) Γ := by
  refine h.later (later_declare a name) ?_
  unfold Analysis.declare
  cases hscopes : a.scopes with
  | nil => simp [hscopes]
  | cons scope outer =>
    dsimp only
    split <;> simp [hscopes]

theorem At.block (h : At a Γ) : At (a.openScope []) (.block :: Γ) where
  body := h.body.trans (bodyAt_cons rfl Γ).symm
  inClass := by simpa [openScope] using h.inClass
  loops := by simpa [openScope, inLoop_cons, Around.isFunction] using h.loops
  scopes := by simp [openScope, inScope_cons, Around.isScope]

theorem At.step (h : At a Γ) : At (a.openScope []) (.step :: Γ) where
  body := h.body.trans (bodyAt_cons rfl Γ).symm
  inClass := by simpa [openScope] using h.inClass
  loops := by simpa [openScope, inLoop_cons, Around.isFunction] using h.loops
  scopes := by simp [openScope, inScope_cons, Around.isScope]

theorem At.loop (h : At a Γ) : At a.enterLoop (.loop :: Γ) where
  body := h.body.trans (bodyAt_cons rfl Γ).symm
  inClass := by simpa [enterLoop] using h.inClass
  loops := by simp [enterLoop, inLoop_cons, Around.isFunction]
  scopes := by simpa [enterLoop, inScope_cons, Around.isScope] using h.scopes

theorem At.classBody (h : At a Γ) (name : Token) :
    At (({ a with inClass := true }.introduce name).openScope [(selfName, .defined)])
      (.classBody :: Γ) where
  body := (later_introduce { a with inClass := true } name).body.trans
    (h.body.trans (bodyAt_cons rfl Γ).symm)
  inClass := by
    have hclass := (later_introduce { a with inClass := true } name).inClass
    simpa [openScope] using hclass
  loops := by
    have hloops := (later_introduce { a with inClass := true } name).loops
    simpa [openScope, hloops, inLoop_cons, Around.isFunction] using h.loops
  scopes := by simp [openScope, inScope_cons, Around.isScope]

theorem At.enterFunction (h : At a Γ) {around : Around} (hfunction : around.isFunction) :
    At (a.enterFunction (bodyAt (around :: Γ))) (around :: Γ) where
  body := rfl
  inClass := by
    have hne : Around.classBody ≠ around := by
      rintro rfl
      cases hfunction
    simpa [Analysis.enterFunction, openScope, hne] using h.inClass
  loops := by simp [Analysis.enterFunction, inLoop_cons, hfunction]
  scopes := by
    have hscope : around.isScope := by
      cases around with
      | loop => cases hfunction
      | function | method | classBody | block | step => rfl
    simp [Analysis.enterFunction, openScope, inScope_cons, hscope]

end At

/-! ### Complaints about names -/

/-- The names are new in the innermost scope, if there is one. -/
def New (scopes : List (Bindings Stage)) (names : List Token) : Prop :=
  ∀ scope ∈ scopes.head?, News scope names

/-- No name of the innermost scope waits for its value. -/
def Complete (scopes : List (Bindings Stage)) : Prop :=
  ∀ scope ∈ scopes.head?, ∀ x, scope.find? x ≠ some .declared

theorem news_append_iff {scope : Bindings Stage} {xs ys : List Token} :
    News scope (xs ++ ys) ↔ News scope xs ∧ News (withDefined scope xs) ys := by
  refine ⟨fun h => ?_, fun h => h.1.append h.2⟩
  have hnodup := h.nodup
  rw [List.map_append] at hnodup
  obtain ⟨hxs, hys, hdisjoint⟩ := List.nodup_append.mp hnodup
  refine ⟨⟨hxs, fun x hx => h.new x ?_⟩, ⟨hys, fun y hy => ?_⟩⟩
  · rw [List.map_append]
    exact List.mem_append_left _ hx
  · rw [Bool.eq_false_iff, Ne, binds_withDefined]
    rintro (hbound | hmem)
    · have hnew := h.new y (by rw [List.map_append]; exact List.mem_append_right _ hy)
      rw [hnew] at hbound
      cases hbound
    · exact hdisjoint y hmem y hy rfl

theorem new_append {scopes : List (Bindings Stage)} {xs ys : List Token} :
    New scopes (xs ++ ys) ↔ New scopes xs ∧ New (withNames scopes xs) ys := by
  cases scopes with
  | nil => simp [New, withNames]
  | cons scope outer => simp [New, withNames, news_append_iff]

theorem new_nil (scopes : List (Bindings Stage)) : New scopes [] := fun scope _ => .nil scope

/-- In an empty scope, all names are new that differ from one another. -/
theorem new_opened {outer : List (Bindings Stage)} {names : List Token} :
    New ([] :: outer) names ↔ Distinct names := by
  refine ⟨fun h => (h [] rfl).nodup, fun h scope hscope => ?_⟩
  cases hscope
  exact ⟨h, fun _ _ => rfl⟩

theorem complete_opened (outer : List (Bindings Stage)) : Complete ([] :: outer) := by
  intro scope hscope
  cases hscope
  exact nofun

/-- Where no name waits for its value, none is read in its own initializer. -/
theorem Complete.inOwnInitializer {a : Analysis} (h : Complete a.scopes) (x : String) :
    a.inOwnInitializer x = false := by
  unfold Analysis.inOwnInitializer
  cases hscopes : a.scopes with
  | nil => rfl
  | cons scope outer => simpa using h scope (by rw [hscopes]; rfl) x

theorem Complete.withNames {scopes : List (Bindings Stage)} (h : Complete scopes)
    (names : List Token) : Complete (withNames scopes names) := by
  cases scopes with
  | nil => exact nofun
  | cons scope outer =>
    intro _ hscope x hx
    cases hscope
    exact h scope rfl x (find?_withDefined hx)

theorem silent_complainIf {p : Prop} [Decidable p] {a : Analysis} {t : Token} {cause : Cause} :
    (if p then a.complain t cause else a).reports = #[] ↔ a.reports = #[] ∧ ¬ p := by
  split
  · next hp => simp [hp, complain]
  · next hp => simp [hp]

theorem silent_declare {a : Analysis} {name : Token} :
    (a.declare name).reports = #[] ↔ a.reports = #[] ∧ New a.scopes [name] := by
  refine ⟨fun h => ⟨(later_declare a name).ahead.silent h, fun scope hscope => ?_⟩,
    fun ⟨h, hnew⟩ => ?_⟩
  · obtain ⟨outer, houter⟩ := List.head?_eq_some_iff.mp hscope
    exact news_of_declare houter h
  · unfold declare
    split
    · exact h
    · next scope outer hscopes =>
      have hfree := (hnew scope (by rw [hscopes]; rfl)).new name.lexeme (by simp)
      simpa [hfree] using h

theorem silent_introduce {a : Analysis} {name : Token} :
    (a.introduce name).reports = #[] ↔ a.reports = #[] ∧ New a.scopes [name] := by
  rw [introduce, reports_define, silent_declare]

theorem silent_introduceAll {names : List Token} {a : Analysis} :
    (names.foldl introduce a).reports = #[] ↔ a.reports = #[] ∧ New a.scopes names := by
  induction names generalizing a with
  | nil => simp [new_nil]
  | cons name names ih =>
    have hsplit : New a.scopes (name :: names) ↔
        New a.scopes [name] ∧ New (withNames a.scopes [name]) names :=
      @new_append a.scopes [name] names
    rw [List.foldl_cons, ih, silent_introduce, scopes_introduce, hsplit, and_assoc]

theorem inOwnInitializer_of_scopes {a a' : Analysis} (h : a'.scopes = a.scopes) :
    a'.inOwnInitializer = a.inOwnInitializer := by
  funext name
  rw [inOwnInitializer, h, inOwnInitializer]

/-- While a new name waits for its value, it is the only one of its scope that does. -/
theorem inOwnInitializer_declare {a : Analysis} {name : Token} (hcomplete : Complete a.scopes)
    (hnew : New a.scopes [name]) (x : String) :
    (a.declare name).inOwnInitializer x = true ↔ a.scopes ≠ [] ∧ x = name.lexeme := by
  unfold declare
  cases hscopes : a.scopes with
  | nil => simp [inOwnInitializer, hscopes]
  | cons scope outer =>
    have hfree := (hnew scope (by rw [hscopes]; rfl)).new name.lexeme (by simp)
    by_cases hx : x = name.lexeme
    · subst hx
      simp [inOwnInitializer, hfree]
    · have hold := hcomplete scope (by rw [hscopes]; rfl) x
      simp [inOwnInitializer, hfree, hx, Bindings.find?_insert_of_ne hx, hold]

/-! ### No complaints -/

/-- A name waits for its value exactly if there is a scope. -/
theorem fine_var_iff {a : Analysis} {Γ : List Around} (h : At a Γ) (hcomplete : Complete a.scopes)
    {name : Token} (hnew : New a.scopes [name]) (value : Expr) :
    Fine Γ (.stmt (.var name (some value))) ↔
      ∀ r ∈ value.reads, (a.declare name).inOwnInitializer r.lexeme = false := by
  simp only [← Bool.not_eq_true, inOwnInitializer_declare hcomplete hnew, Fine, ← h.scopes]
  grind

/-- The keyword of a return is looked at before its value is, and its place is all that may be wrong
with it. -/
theorem At.result {a : Analysis} {Γ : List Around} (h : At a Γ) (keyword : Token) (value : Expr) :
    ∃ b : Analysis, resolveStmt (.result keyword (some value)) a = resolveExpr value b ∧ At b Γ ∧
      b.scopes = a.scopes ∧
      (b.reports = #[] ↔ a.reports = #[] ∧ Fine Γ (.stmt (.result keyword (some value)))) := by
  let b := if a.body = .program then a.complain keyword .topLevelReturn else a
  let c := if b.body = .initializer then b.complain keyword .initializerReturn else b
  have hb : Later a b := later_complainIf (a.body = .program) a keyword .topLevelReturn
  have hc : Later b c := later_complainIf (b.body = .initializer) b keyword .initializerReturn
  have hscopes : c.scopes = a.scopes := by
    simp only [c, b]
    split <;> split <;> rfl
  refine ⟨c, rfl, h.later (hb.trans hc) (by rw [hscopes]), hscopes, ?_⟩
  have hprogram : b.reports = #[] ↔ a.reports = #[] ∧ InFunction Γ := by
    simp only [b, silent_complainIf, h.body, bodyAt_eq_program, Classical.not_not]
  have hinitializer : c.reports = #[] ↔ b.reports = #[] ∧ ¬ InInitializer Γ := by
    simp only [c, silent_complainIf, hb.body, h.body, bodyAt_eq_initializer]
  rw [hinitializer, hprogram, and_assoc]
  simp [Fine]

/-- The parts of a class are the statements of its methods. -/
theorem everywhere_methods {P : List Around → Node → Prop} {Γ : List Around} {name : Token}
    {methods : List FunctionDecl} :
    (∀ p ∈ Node.parts (.stmt (.classDecl name methods)), Everywhere P (p.1 ++ Γ) p.2) ↔
      ∀ f ∈ methods, ∀ s ∈ f.body, Everywhere P (.method f :: .classBody :: Γ) (.stmt s) := by
  simp only [Node.parts, List.mem_flatMap, List.mem_map]
  constructor
  · intro hall f hf s hs
    exact hall _ ⟨f, hf, s, hs, rfl⟩
  · rintro hall _ ⟨f, hf, s, hs, rfl⟩
    exact hall f hf s hs

theorem around_function (decl : FunctionDecl) : (Around.function decl).isFunction = true := rfl

theorem around_method (decl : FunctionDecl) : (Around.method decl).isFunction = true := rfl

mutual

theorem silent_resolveExpr (e : Expr) {a : Analysis} {Γ : List Around} (h : At a Γ) :
    (resolveExpr e a).reports = #[] ↔
      a.reports = #[] ∧ Everywhere Fine Γ (.expr e) ∧
        ∀ r ∈ e.reads, a.inOwnInitializer r.lexeme = false := by
  rw [everywhere_iff]
  match e with
  | .literal _ => simp [resolveExpr, Fine, scopesOpened]
  | .unary _ operand =>
    simp [resolveExpr, silent_resolveExpr operand h, Fine, scopesOpened]
  | .group inner =>
    simp [resolveExpr, silent_resolveExpr inner h, Fine, scopesOpened]
  | .get object _ =>
    simp [resolveExpr, silent_resolveExpr object h, Fine, scopesOpened]
  | .assign _ _ value =>
    simp [resolveExpr, silent_resolveExpr value h, Fine, scopesOpened]
  | .var _ name =>
    simp [resolveExpr, silent_complainIf, Fine, scopesOpened]
  | .self _ keyword =>
    unfold resolveExpr
    split
    · next hclass =>
      have hmem := h.inClass.mp hclass
      simp [Fine, hmem]
    · next hclass =>
      have hmem := mt h.inClass.mpr hclass
      simp [Fine, hmem, complain]
  | .binary left _ right =>
    have hleft := inOwnInitializer_of_scopes (scopes_resolveExpr left a)
    simp [resolveExpr, silent_resolveExpr right (h.expr left), silent_resolveExpr left h, hleft,
      Fine, scopesOpened, or_imp, forall_and, and_assoc, and_left_comm]
  | .logical left _ right =>
    have hleft := inOwnInitializer_of_scopes (scopes_resolveExpr left a)
    simp [resolveExpr, silent_resolveExpr right (h.expr left), silent_resolveExpr left h, hleft,
      Fine, scopesOpened, or_imp, forall_and, and_assoc, and_left_comm]
  | .index _ base key =>
    have hbase := inOwnInitializer_of_scopes (scopes_resolveExpr base a)
    simp [resolveExpr, silent_resolveExpr key (h.expr base), silent_resolveExpr base h, hbase,
      Fine, scopesOpened, or_imp, forall_and, and_assoc, and_left_comm]
  | .set object _ value =>
    have hobject := inOwnInitializer_of_scopes (scopes_resolveExpr object a)
    simp [resolveExpr, silent_resolveExpr value (h.expr object), silent_resolveExpr object h,
      hobject, Fine, scopesOpened, or_imp, forall_and, and_assoc, and_left_comm]
  | .conditional test yes no =>
    have htest := inOwnInitializer_of_scopes (scopes_resolveExpr test a)
    have hyes := inOwnInitializer_of_scopes (scopes_resolveExpr yes (resolveExpr test a))
    simp [resolveExpr, silent_resolveExpr no ((h.expr test).expr yes),
      silent_resolveExpr yes (h.expr test), silent_resolveExpr test h, hyes, htest, Fine,
      scopesOpened, or_imp, forall_and, and_assoc, and_left_comm]
  | .indexSet _ base key value =>
    have hbase := inOwnInitializer_of_scopes (scopes_resolveExpr base a)
    have hkey := inOwnInitializer_of_scopes (scopes_resolveExpr key (resolveExpr base a))
    simp [resolveExpr, silent_resolveExpr value ((h.expr base).expr key),
      silent_resolveExpr key (h.expr base), silent_resolveExpr base h, hkey, hbase, Fine,
      scopesOpened, or_imp, forall_and, and_assoc, and_left_comm]
  | .call callee _ arguments =>
    have hcallee := inOwnInitializer_of_scopes (scopes_resolveExpr callee a)
    simp [resolveExpr, silent_resolveExprs arguments (h.expr callee), silent_resolveExpr callee h,
      hcallee, Fine, scopesOpened, or_imp, forall_and, and_assoc, and_left_comm]
  | .array _ elements =>
    simp [resolveExpr, silent_resolveExprs elements h, Fine, scopesOpened]
  | .lambda decl =>
    refine (silent_resolveFunction decl h (around_function decl)).trans ?_
    simp [Fine, scopesOpened]

theorem silent_resolveExprs (es : List Expr) {a : Analysis} {Γ : List Around} (h : At a Γ) :
    (resolveExprs es a).reports = #[] ↔
      a.reports = #[] ∧ (∀ e ∈ es, Everywhere Fine Γ (.expr e)) ∧
        ∀ r ∈ readsOfExprs es, a.inOwnInitializer r.lexeme = false := by
  match es with
  | [] => simp [resolveExprs]
  | e :: es =>
    have he := inOwnInitializer_of_scopes (scopes_resolveExpr e a)
    simp [resolveExprs, silent_resolveExprs es (h.expr e), silent_resolveExpr e h, he,
      or_imp, forall_and, and_assoc, and_left_comm]

theorem silent_resolveStmt (s : Stmt) {a : Analysis} {Γ : List Around} (h : At a Γ)
    (hcomplete : Complete a.scopes) :
    (resolveStmt s a).reports = #[] ↔
      a.reports = #[] ∧ Everywhere Fine Γ (.stmt s) ∧ New a.scopes (declared s) := by
  rw [everywhere_iff]
  match s with
  | .expression e =>
    have hreads := hcomplete.inOwnInitializer
    simp [resolveStmt, silent_resolveExpr e h, hreads, Fine, scopesOpened, declared, new_nil]
  | .print e =>
    have hreads := hcomplete.inOwnInitializer
    simp [resolveStmt, silent_resolveExpr e h, hreads, Fine, scopesOpened, declared, new_nil]
  | .var name none => simp [resolveStmt, silent_introduce, Fine, scopesOpened, declared]
  | .var name (some value) =>
    have hvalue := silent_resolveExpr value (h.declare name)
    rw [silent_declare] at hvalue
    rw [resolveStmt, reports_define, hvalue]
    have hpending (hnew : New a.scopes [name]) := fine_var_iff h hcomplete hnew value
    simp only [Node.parts, Option.toList_some, List.map_cons, List.map_nil, List.mem_singleton,
      forall_eq, List.nil_append, declared]
    grind
  | .block body =>
    have hbody : (resolveStmts body (a.openScope [])).reports = #[] ↔ a.reports = #[] ∧
        (∀ s ∈ body, Everywhere Fine (.block :: Γ) (.stmt s)) ∧ New ([] :: a.scopes) _ :=
      silent_resolveStmts body h.block (complete_opened _)
    refine hbody.trans ?_
    simp [new_opened, Fine, scopesOpened, declared, new_nil, and_comm]
  | .ifElse test yes none =>
    have hreads := hcomplete.inOwnInitializer
    have htest : Complete (resolveExpr test a).scopes := by rwa [scopes_resolveExpr]
    simp [resolveStmt, silent_resolveStmt yes (h.expr test) htest, silent_resolveExpr test h,
      hreads, Fine, scopesOpened, declared, scopes_resolveExpr, and_assoc]
  | .ifElse test yes (some no) =>
    have hreads := hcomplete.inOwnInitializer
    have htest : Complete (resolveExpr test a).scopes := by rwa [scopes_resolveExpr]
    have hyes : Complete (resolveStmt yes (resolveExpr test a)).scopes := by
      rw [scopes_resolveStmt]
      exact htest.withNames _
    simp [resolveStmt, silent_resolveStmt no ((h.expr test).stmt yes) hyes,
      silent_resolveStmt yes (h.expr test) htest, silent_resolveExpr test h, hreads, Fine,
      scopesOpened, declared, scopes_resolveExpr, scopes_resolveStmt, new_append, and_assoc,
      and_left_comm]
  | .loop test body step? =>
    have hreads := hcomplete.inOwnInitializer
    have htest : Complete (resolveExpr test a).scopes := by rwa [scopes_resolveExpr]
    have hbody := silent_resolveStmt body (h.expr test).loop htest
    have htestSilent : (resolveExpr test a).enterLoop.reports = #[] ↔ _ :=
      silent_resolveExpr test h
    have hscopes : (resolveExpr test a).enterLoop.scopes = a.scopes := scopes_resolveExpr test a
    rw [htestSilent, hscopes] at hbody
    cases step? with
    | none =>
      refine hbody.trans ?_
      simp [hreads, Fine, scopesOpened, declared, and_assoc]
    | some step =>
      have hbehind : At (resolveStmt body (resolveExpr test a).enterLoop).leaveLoop Γ := by
        refine h.later (later_loop (resolveExpr_later test a) (resolveStmt_later body _)) ?_
        rw [leaveLoop, scopes_resolveStmt, withNames_eq_nil, hscopes]
      have hstep : (resolveStmt step
          ((resolveStmt body (resolveExpr test a).enterLoop).leaveLoop.openScope [])).reports = #[] ↔
          (resolveStmt body (resolveExpr test a).enterLoop).reports = #[] ∧ _ ∧ New ([] :: _) _ :=
        silent_resolveStmt step hbehind.step (complete_opened _)
      rw [hbody, new_opened] at hstep
      refine hstep.trans ?_
      simp [hreads, Fine, scopesOpened, declared, and_assoc, and_left_comm, and_comm]
  | .exitLoop keyword =>
    have hloop := h.loops
    simp [resolveStmt, requireLoop, silent_complainIf, hloop, Fine, declared, new_nil]
  | .nextIteration keyword =>
    have hloop := h.loops
    simp [resolveStmt, requireLoop, silent_complainIf, hloop, Fine, declared, new_nil]
  | .function decl =>
    cases hname : decl.name? with
    | none =>
      have hdecl := silent_resolveFunction decl h (around_function decl)
      rw [resolveStmt, hname]
      refine hdecl.trans ?_
      simp [Fine, scopesOpened, declared, hname, new_nil]
    | some name =>
      have hdecl := silent_resolveFunction decl (h.introduce name) (around_function decl)
      rw [silent_introduce] at hdecl
      rw [resolveStmt, hname]
      refine hdecl.trans ?_
      simp [Fine, scopesOpened, declared, hname, and_assoc, and_comm]
  | .result keyword none =>
    simp [resolveStmt, silent_complainIf, h.body, bodyAt_eq_program, Fine, declared, new_nil]
  | .result keyword (some value) =>
    have hreads := hcomplete.inOwnInitializer
    obtain ⟨b, hb, hat, hscopes, hsilent⟩ := h.result keyword value
    have hvalue := silent_resolveExpr value hat
    rw [hsilent, inOwnInitializer_of_scopes hscopes] at hvalue
    rw [hb]
    refine hvalue.trans ?_
    simp [hreads, declared, new_nil, and_assoc]
  | .classDecl name methods =>
    have hmethods := silent_resolveMethods methods (h.classBody name)
    have hname : (({ a with inClass := true }.introduce name).openScope
        [(selfName, .defined)]).reports = #[] ↔ a.reports = #[] ∧ New a.scopes [name] :=
      silent_introduce
    rw [hname] at hmethods
    refine hmethods.trans ?_
    rw [everywhere_methods]
    simp only [Fine, scopesOpened, List.forall_mem_map, declared, forall_and]
    grind

theorem silent_resolveStmts (ss : List Stmt) {a : Analysis} {Γ : List Around} (h : At a Γ)
    (hcomplete : Complete a.scopes) :
    (resolveStmts ss a).reports = #[] ↔
      a.reports = #[] ∧ (∀ s ∈ ss, Everywhere Fine Γ (.stmt s)) ∧ New a.scopes (declaredBy ss) := by
  match ss with
  | [] => simp [resolveStmts, declaredBy, new_nil]
  | s :: ss =>
    have hs : Complete (resolveStmt s a).scopes := by
      rw [scopes_resolveStmt]
      exact hcomplete.withNames _
    have hdeclared : declaredBy (s :: ss) = declared s ++ declaredBy ss := List.flatMap_cons
    rw [hdeclared, new_append, List.forall_mem_cons, resolveStmts,
      silent_resolveStmts ss (h.stmt s) hs, silent_resolveStmt s h hcomplete, scopes_resolveStmt]
    grind

theorem silent_resolveFunction (f : FunctionDecl) {a : Analysis} {Γ : List Around} (h : At a Γ)
    {around : Around} (hfunction : around.isFunction = true) :
    (resolveFunction f (bodyAt (around :: Γ)) a).reports = #[] ↔
      a.reports = #[] ∧ Distinct (declaredIn f) ∧
        ∀ s ∈ f.body, Everywhere Fine (around :: Γ) (.stmt s) := by
  match f with
  | ⟨name?, params, statements⟩ =>
    let b := a.enterFunction (bodyAt (around :: Γ))
    have hparams : (params.foldl introduce b).reports = #[] ↔
        a.reports = #[] ∧ New b.scopes params := silent_introduceAll
    have hcomplete : Complete (params.foldl introduce b).scopes := by
      rw [scopes_introduceAll]
      exact Complete.withNames (complete_opened a.scopes) params
    have hbody : (resolveStmts statements (params.foldl introduce b)).reports = #[] ↔ _ :=
      silent_resolveStmts statements ((h.enterFunction hfunction).introduceAll params) hcomplete
    rw [hparams, scopes_introduceAll] at hbody
    refine hbody.trans ?_
    have hnames : New b.scopes (params ++ declaredBy statements) ↔
        Distinct (params ++ declaredBy statements) := new_opened
    rw [declaredIn, ← hnames, new_append]
    simp only [and_assoc, and_comm]

theorem silent_resolveMethods (fs : List FunctionDecl) {a : Analysis} {Γ : List Around}
    (h : At a Γ) :
    (resolveMethods fs a).reports = #[] ↔
      a.reports = #[] ∧ ∀ f ∈ fs, Distinct (declaredIn f) ∧
        ∀ s ∈ f.body, Everywhere Fine (.method f :: Γ) (.stmt s) := by
  match fs with
  | [] => simp [resolveMethods]
  | f :: fs =>
    have hf := silent_resolveFunction f h (around_method f)
    have hat : At (resolveFunction f (methodBody f) a) Γ :=
      h.later (resolveFunction_later f _ a) (by rw [scopes_resolveFunction])
    have hfs := silent_resolveMethods fs hat
    refine hfs.trans ((and_congr_left' hf).trans ?_)
    rw [List.forall_mem_cons, and_assoc, and_assoc]

end

/-- **The analysis accepts exactly the legal programs**, whatever depths were found before. -/
theorem accepted_iff_legal (program : List Stmt) (depths : Depths) :
    (resolve program depths).accepted = true ↔ Legal program := by
  have hcomplete : Complete (Analysis.start depths).scopes := nofun
  have hsilent := silent_resolveStmts program (At.start depths) hcomplete
  have hnew : New (Analysis.start depths).scopes (declaredBy program) := nofun
  have hstart : (Analysis.start depths).reports = #[] := rfl
  rw [Analysis.accepted, Array.isEmpty_iff, resolve, hsilent, legal_iff]
  simp only [hstart, hnew, true_and, and_true]

end Scope

end Roteiro
