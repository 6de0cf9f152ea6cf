import Roteiro.Machine.Eval

/-!
# The moments of a run

Running a program means carrying out many evaluations inside of one another: of expressions, of
statements, of calls. A *moment* is the start of one of them, with the fuel that is left and the
machine as it is then. `Within` says which evaluations a moment starts itself, and `During` which
ones take place before it has ended.

`Makes` says which functions an evaluation makes. A function that is declared is bound to its name
in the same stroke, so what it is judged by is the machine in which it has that name already.
`Receives` says on which instance an evaluation looks up a method, and `Task.binds` which names it
binds.
-/

namespace Roteiro

namespace Machine

/-- Something to evaluate. -/
inductive Task where
  | exec (stmt : Stmt)
  | execAll (stmts : List Stmt)
  | execLoop (test : Expr) (body : Stmt) (step : Option Stmt)
  | eval (expr : Expr)
  | evalAll (exprs : List Expr)
  | call (callee : Value) (paren : Token) (arguments : List Value)
  | apply (closure : Closure) (paren : Token) (arguments : List Value)

/-- What an evaluation gives. -/
@[reducible] def Task.Result : Task → Type
  | exec _ => Flow
  | execAll _ => Flow
  | execLoop _ _ _ => Flow
  | eval _ => Value
  | evalAll _ => List Value
  | call _ _ _ => Value
  | apply _ _ _ => Value

/-- The evaluation, with so much fuel. -/
def Task.run (fuel : Nat) : (task : Task) → Run task.Result
  | exec stmt => Machine.exec fuel stmt
  | execAll stmts => Machine.execAll fuel stmts
  | execLoop test body step => Machine.execLoop fuel test body step
  | eval expr => Machine.eval fuel expr
  | evalAll exprs => Machine.evalAll fuel exprs
  | call callee paren arguments => Machine.call fuel callee paren arguments
  | apply closure paren arguments => Machine.apply fuel closure paren arguments

/-- The start of an evaluation. -/
structure Moment where
  fuel : Nat
  task : Task
  machine : Machine

/-- The machine in which a step ends, with a result or without. -/
def final {ε α : Type} (step : EStateM ε Machine α) (m : Machine) : Machine :=
  match step m with
  | .ok _ m' => m'
  | .error _ m' => m'

/-- The machine in which the evaluation ends. -/
def Moment.final (M : Moment) : Machine := Machine.final (M.task.run M.fuel) M.machine

/-- The machine in a new frame. -/
def enter (m : Machine) (around : Ref .frames) (bindings : Bindings Value) : Machine :=
  { m with
    store := (m.store.addFrame around bindings).2
    current := (m.store.addFrame around bindings).1 }

/-- The parameters of a function with its arguments. -/
def argumentBindings (c : Closure) (arguments : List Value) : Bindings Value :=
  (c.decl.params.zip arguments).foldl
    (fun (b : Bindings Value) (p : Token × Value) => b.insert p.1.lexeme p.2) []

/-- The machine after an instance of a class was added. -/
def withInstance (m : Machine) (k : Ref .classes) : Machine :=
  { m with store := (m.store.addInstance k).2 }

/-- The machine and the function after an initializer was bound to a new instance. -/
def boundInitializer (m : Machine) (k : Ref .classes) (initializer : Closure) : Closure × Machine :=
  let receiver := (m.store.addInstance k).1
  let m := m.withInstance k
  let (frame, store) := m.store.addFrame initializer.frame [(selfName, .instanceRef receiver)]
  ({ initializer with frame }, { m with store })

/-- `Within M' M`: the evaluation `M'` is started by the evaluation `M` itself. -/
inductive Within : Moment → Moment → Prop
  -- statements
  | expression {n m e} : Within ⟨n, .eval e, m⟩ ⟨n + 1, .exec (.expression e), m⟩
  | print {n m e} : Within ⟨n, .eval e, m⟩ ⟨n + 1, .exec (.print e), m⟩
  | declared {n m name e} : Within ⟨n, .eval e, m⟩ ⟨n + 1, .exec (.var name (some e)), m⟩
  | block {n m body} :
    Within ⟨n, .execAll body, m.enter m.current []⟩ ⟨n + 1, .exec (.block body), m⟩
  | choice {n m test yes no?} :
    Within ⟨n, .eval test, m⟩ ⟨n + 1, .exec (.ifElse test yes no?), m⟩
  | chosenYes {n m test yes no? v m₁} (htest : eval n test m = .ok v m₁) (hv : v.truthy = true) :
    Within ⟨n, .exec yes, m₁⟩ ⟨n + 1, .exec (.ifElse test yes no?), m⟩
  | chosenNo {n m test yes no v m₁} (htest : eval n test m = .ok v m₁) (hv : v.truthy = false) :
    Within ⟨n, .exec no, m₁⟩ ⟨n + 1, .exec (.ifElse test yes (some no)), m⟩
  | loop {n m test body step} :
    Within ⟨n, .execLoop test body step, m⟩ ⟨n + 1, .exec (.loop test body step), m⟩
  | result {n m keyword e} :
    Within ⟨n, .eval e, m⟩ ⟨n + 1, .exec (.result keyword (some e)), m⟩
  | first {n m s ss} : Within ⟨n, .exec s, m⟩ ⟨n + 1, .execAll (s :: ss), m⟩
  | others {n m s ss m₁} (hfirst : exec n s m = .ok .normal m₁) :
    Within ⟨n, .execAll ss, m₁⟩ ⟨n + 1, .execAll (s :: ss), m⟩
  -- loops
  | loopTest {n m test body step} :
    Within ⟨n, .eval test, m⟩ ⟨n + 1, .execLoop test body step, m⟩
  | loopBody {n m test body step v m₁} (htest : eval n test m = .ok v m₁) (hv : v.truthy = true) :
    Within ⟨n, .exec body, m₁⟩ ⟨n + 1, .execLoop test body step, m⟩
  | loopAgain {n m test body step v m₁ m₂} (htest : eval n test m = .ok v m₁)
      (hv : v.truthy = true) (hbody : exec n body m₁ = .ok .normal m₂) :
    Within ⟨n, .execLoop test body step, m₂⟩ ⟨n + 1, .execLoop test body step, m⟩
  | loopStep {n m test body s v m₁ m₂} (htest : eval n test m = .ok v m₁) (hv : v.truthy = true)
      (hbody : exec n body m₁ = .ok .nextIteration m₂) :
    Within ⟨n, .execAll [s], m₂.enter m₂.current []⟩ ⟨n + 1, .execLoop test body (some s), m⟩
  | loopStepped {n m test body s v m₁ m₂ flow m₃} (htest : eval n test m = .ok v m₁)
      (hv : v.truthy = true) (hbody : exec n body m₁ = .ok .nextIteration m₂)
      (hstep : execAll n [s] (m₂.enter m₂.current []) = .ok flow m₃) :
    Within ⟨n, .execLoop test body (some s), { m₃ with current := m₂.current }⟩
      ⟨n + 1, .execLoop test body (some s), m⟩
  | loopCutShort {n m test body v m₁ m₂} (htest : eval n test m = .ok v m₁)
      (hv : v.truthy = true) (hbody : exec n body m₁ = .ok .nextIteration m₂) :
    Within ⟨n, .execLoop test body none, m₂⟩ ⟨n + 1, .execLoop test body none, m⟩
  -- expressions
  | group {n m e} : Within ⟨n, .eval e, m⟩ ⟨n + 1, .eval (.group e), m⟩
  | unary {n m operator e} : Within ⟨n, .eval e, m⟩ ⟨n + 1, .eval (.unary operator e), m⟩
  | binaryLeft {n m left operator right} :
    Within ⟨n, .eval left, m⟩ ⟨n + 1, .eval (.binary left operator right), m⟩
  | binaryRight {n m left operator right v m₁} (hleft : eval n left m = .ok v m₁) :
    Within ⟨n, .eval right, m₁⟩ ⟨n + 1, .eval (.binary left operator right), m⟩
  | logicalLeft {n m left operator right} :
    Within ⟨n, .eval left, m⟩ ⟨n + 1, .eval (.logical left operator right), m⟩
  | logicalRight {n m left operator right v m₁} (hleft : eval n left m = .ok v m₁)
      (hopen : (if operator.kind = .orKw then v.truthy else !v.truthy) = false) :
    Within ⟨n, .eval right, m₁⟩ ⟨n + 1, .eval (.logical left operator right), m⟩
  | conditionalTest {n m test yes no} :
    Within ⟨n, .eval test, m⟩ ⟨n + 1, .eval (.conditional test yes no), m⟩
  | conditionalYes {n m test yes no v m₁} (htest : eval n test m = .ok v m₁)
      (hv : v.truthy = true) :
    Within ⟨n, .eval yes, m₁⟩ ⟨n + 1, .eval (.conditional test yes no), m⟩
  | conditionalNo {n m test yes no v m₁} (htest : eval n test m = .ok v m₁)
      (hv : v.truthy = false) :
    Within ⟨n, .eval no, m₁⟩ ⟨n + 1, .eval (.conditional test yes no), m⟩
  | assign {n m id name e} : Within ⟨n, .eval e, m⟩ ⟨n + 1, .eval (.assign id name e), m⟩
  | callee {n m callee paren arguments} :
    Within ⟨n, .eval callee, m⟩ ⟨n + 1, .eval (.call callee paren arguments), m⟩
  | arguments {n m callee paren arguments f m₁} (hcallee : eval n callee m = .ok f m₁) :
    Within ⟨n, .evalAll arguments, m₁⟩ ⟨n + 1, .eval (.call callee paren arguments), m⟩
  | call {n m callee paren arguments f m₁ vs m₂} (hcallee : eval n callee m = .ok f m₁)
      (harguments : evalAll n arguments m₁ = .ok vs m₂) :
    Within ⟨n, .call f paren vs, m₂⟩ ⟨n + 1, .eval (.call callee paren arguments), m⟩
  | elements {n m bracket elements} :
    Within ⟨n, .evalAll elements, m⟩ ⟨n + 1, .eval (.array bracket elements), m⟩
  | indexBase {n m bracket base key} :
    Within ⟨n, .eval base, m⟩ ⟨n + 1, .eval (.index bracket base key), m⟩
  | indexKey {n m bracket base key b m₁} (hbase : eval n base m = .ok b m₁) :
    Within ⟨n, .eval key, m₁⟩ ⟨n + 1, .eval (.index bracket base key), m⟩
  | indexSetBase {n m bracket base key e} :
    Within ⟨n, .eval base, m⟩ ⟨n + 1, .eval (.indexSet bracket base key e), m⟩
  | indexSetKey {n m bracket base key e b m₁} (hbase : eval n base m = .ok b m₁) :
    Within ⟨n, .eval key, m₁⟩ ⟨n + 1, .eval (.indexSet bracket base key e), m⟩
  | indexSetValue {n m bracket base key e b m₁ k m₂} (hbase : eval n base m = .ok b m₁)
      (hkey : eval n key m₁ = .ok k m₂) :
    Within ⟨n, .eval e, m₂⟩ ⟨n + 1, .eval (.indexSet bracket base key e), m⟩
  | getObject {n m object name} :
    Within ⟨n, .eval object, m⟩ ⟨n + 1, .eval (.get object name), m⟩
  | setObject {n m object name e} :
    Within ⟨n, .eval object, m⟩ ⟨n + 1, .eval (.set object name e), m⟩
  | setValue {n m object name e i m₁} (hobject : eval n object m = .ok (.instanceRef i) m₁) :
    Within ⟨n, .eval e, m₁⟩ ⟨n + 1, .eval (.set object name e), m⟩
  | element {n m e es} : Within ⟨n, .eval e, m⟩ ⟨n + 1, .evalAll (e :: es), m⟩
  | otherElements {n m e es v m₁} (hfirst : eval n e m = .ok v m₁) :
    Within ⟨n, .evalAll es, m₁⟩ ⟨n + 1, .evalAll (e :: es), m⟩
  -- calls
  | callFunction {n m f paren vs} (harity : (m.store.closure f).decl.arity = vs.length) :
    Within ⟨n, .apply (m.store.closure f) paren vs, m⟩ ⟨n + 1, .call (.function f) paren vs, m⟩
  | callInitializer {n m k paren vs initializer}
      (hmethod : (m.store.classInfo k).methods.find? initializerName = some initializer)
      (harity : initializer.decl.arity = vs.length) :
    Within ⟨n, .apply (m.boundInitializer k initializer).1 paren vs,
      (m.boundInitializer k initializer).2⟩ ⟨n + 1, .call (.classRef k) paren vs, m⟩
  | body {n m c paren vs} :
    Within ⟨n, .execAll c.decl.body, m.enter c.frame (argumentBindings c vs)⟩
      ⟨n + 1, .apply c paren vs, m⟩

/-- `During M' M`: the evaluation `M'` is `M` or starts before `M` has ended. -/
inductive During : Moment → Moment → Prop
  | refl (M : Moment) : During M M
  | step {M'' M' M : Moment} (hwithin : Within M'' M') (hduring : During M' M) : During M'' M

theorem During.trans {M'' M' M : Moment} (h : During M'' M') (h' : During M' M) : During M'' M := by
  induction h with
  | refl => exact h'
  | step hwithin _ ih => exact .step hwithin (ih h')

/-- `Reached fuel program m M`: running the program comes to the evaluation `M`. -/
inductive Reached (fuel : Nat) : List Stmt → Machine → Moment → Prop
  | here {s ss m M} (h : During M ⟨fuel, .exec s, m⟩) : Reached fuel (s :: ss) m M
  | later {s ss m flow m₁ M} (hrun : exec fuel s m = .ok flow m₁) (h : Reached fuel ss m₁ M) :
    Reached fuel (s :: ss) m M

/-- What is started inside of an evaluation that a program comes to is come to as well. -/
theorem Reached.within {fuel : Nat} {program : List Stmt} {m : Machine} {M M' : Moment}
    (h : Reached fuel program m M) (hwithin : Within M' M) : Reached fuel program m M' := by
  induction h with
  | here hduring => exact .here (.step hwithin hduring)
  | later hrun _ ih => exact .later hrun (ih hwithin)

/-- An evaluation has less fuel than the one that starts it. -/
theorem Within.fuel {M' M : Moment} (h : Within M' M) : M.fuel = M'.fuel + 1 := by
  cases h <;> rfl

/-! ### Functions and classes that are made -/

/-- The machine after a function was added. -/
def withFunction (m : Machine) (c : Closure) : Machine :=
  { m with store := (m.store.addFunction c).2 }

/-- The machine after the declaration of a function. -/
def functionDeclared (m : Machine) (decl : FunctionDecl) : Machine :=
  let (f, store) := m.store.addFunction ⟨decl, m.current, false⟩
  { m with store := store.define m.current decl.displayName (.function f) }

/-- The methods that some declarations make in a frame. -/
def methodBindings (frame : Ref .frames) (methods : List FunctionDecl) : Bindings Closure :=
  methods.foldl (fun (b : Bindings Closure) decl =>
    b.insert decl.displayName ⟨decl, frame, decl.displayName = initializerName⟩) []

/-- The machine after the declaration of a class. -/
def classDeclared (m : Machine) (name : Token) (methods : List FunctionDecl) : Machine :=
  let (k, store) := m.store.addClass ⟨name.lexeme, methodBindings m.current methods⟩
  { m with store := store.define m.current name.lexeme (.classRef k) }

/-- What a function is made as. -/
inductive Role where
  | function
  | method

/-- `Makes M m role c`: the evaluation `M` itself makes the function or method `c`, and the machine
is `m` when that is done. -/
inductive Makes : Moment → Machine → Role → Closure → Prop
  | lambda {n m decl} :
    Makes ⟨n, .eval (.lambda decl), m⟩ (m.withFunction ⟨decl, m.current, false⟩) .function
      ⟨decl, m.current, false⟩
  | function {n m decl} :
    Makes ⟨n, .exec (.function decl), m⟩ (m.functionDeclared decl) .function
      ⟨decl, m.current, false⟩
  | method {n m name methods decl} (hdecl : decl ∈ methods) :
    Makes ⟨n, .exec (.classDecl name methods), m⟩ (m.classDeclared name methods) .method
      ⟨decl, m.current, decl.displayName = initializerName⟩

/-- `Receives M F r method`: the evaluation `M` itself looks up the method on the instance `r`, and
puts the instance into the new frame `F` for it. A class that is called looks up its initializer on
the new instance. -/
inductive Receives : Moment → Ref .frames → Ref .instances → Closure → Prop
  | property {n m object name r m₁ method} (hobject : eval n object m = .ok (.instanceRef r) m₁)
      (hfield : (m₁.store.instanceAt r).fields.find? name.lexeme = none)
      (hmethod : (m₁.store.classInfo (m₁.store.instanceAt r).classRef).methods.find? name.lexeme =
        some method) :
      Receives ⟨n + 1, .eval (.get object name), m⟩ ⟨m₁.store.frames.size⟩ r method
  | construction {n m k paren vs initializer}
      (hmethod : (m.store.classInfo k).methods.find? initializerName = some initializer)
      (harity : initializer.decl.arity = vs.length) :
      Receives ⟨n + 1, .call (.classRef k) paren vs, m⟩ ⟨m.store.frames.size⟩
        (m.store.addInstance k).1 initializer

/-- The names that an evaluation itself binds to new values, in whatever frame. -/
def Task.binds : Task → List String
  | exec (.var name _) => [name.lexeme]
  | exec (.function decl) => [decl.displayName]
  | exec (.classDecl name _) => [name.lexeme]
  | eval (.assign _ name _) => [name.lexeme]
  | apply c _ _ => c.decl.params.map Token.lexeme
  | _ => []

theorem mem_replace {α : Type} {name : String} {new : α} {b : Bindings α} {p : String × α}
    (h : p ∈ Bindings.replace name new b) : p = (name, new) ∨ p ∈ b := by
  induction b with
  | nil => cases h
  | cons q rest ih =>
    unfold Bindings.replace at h
    split at h
    · next hname =>
      rcases List.mem_cons.mp h with rfl | h
      · exact .inl (by rw [hname])
      · exact .inr (List.mem_cons_of_mem q h)
    · rcases List.mem_cons.mp h with rfl | h
      · exact .inr (List.mem_cons_self)
      · exact (ih h).imp_right (List.mem_cons_of_mem q)

theorem mem_insert {α : Type} {name : String} {new : α} {b : Bindings α} {p : String × α}
    (h : p ∈ Bindings.insert name new b) : p = (name, new) ∨ p ∈ b := by
  unfold Bindings.insert at h
  split at h
  · exact mem_replace h
  · rcases List.mem_cons.mp h with rfl | h
    · exact .inl rfl
    · exact .inr h

/-- The methods of a class are made from its declarations. -/
theorem mem_methodBindings {frame : Ref .frames} {methods : List FunctionDecl}
    {p : String × Closure} (h : p ∈ methodBindings frame methods) :
    ∃ decl ∈ methods,
      p = (decl.displayName, ⟨decl, frame, decl.displayName = initializerName⟩) := by
  -- the fold starts from any methods that are bound already
  have hfold : ∀ bound : Bindings Closure,
      p ∈ methods.foldl (fun (b : Bindings Closure) decl =>
        b.insert decl.displayName ⟨decl, frame, decl.displayName = initializerName⟩) bound →
      (∃ decl ∈ methods,
        p = (decl.displayName, ⟨decl, frame, decl.displayName = initializerName⟩)) ∨
        p ∈ bound := by
    clear h
    induction methods with
    | nil => exact fun _ h => .inr h
    | cons decl methods ih =>
      intro bound h
      rcases ih _ h with ⟨d, hd, hp⟩ | hp
      · exact .inl ⟨d, List.mem_cons_of_mem decl hd, hp⟩
      · rcases mem_insert hp with hp | hp
        · exact .inl ⟨decl, List.mem_cons_self, hp⟩
        · exact .inr hp
  rcases hfold [] h with h | h
  · exact h
  · cases h

theorem mem_of_find? {α : Type} {name : String} {b : Bindings α} {v : α}
    (h : b.find? name = some v) : (name, v) ∈ b := by
  induction b with
  | nil => cases h
  | cons q rest ih =>
    unfold Bindings.find? at h
    split at h
    · next hname =>
      cases h
      rw [← hname]
      exact List.mem_cons_self
    · exact List.mem_cons_of_mem q (ih h)

/-- A reference that leads nowhere counts as one to the default. -/
theorem closure_default_or_mem (s : Store) (f : Ref .functions) :
    s.closure f = default ∨ s.closure f ∈ s.functions := by
  unfold Store.closure
  rw [Array.getD_eq_getD_getElem?]
  cases hf : s.functions[f.index]? with
  | none => exact .inl rfl
  | some c => exact .inr (Array.mem_of_getElem? hf)

/-- Methods belong to a class in the store. -/
theorem class_of_mem_methods {s : Store} {k : Ref .classes} {p : String × Closure}
    (h : p ∈ (s.classInfo k).methods) :
    ∃ info, s.classes[k.index]? = some info ∧ p ∈ info.methods := by
  unfold Store.classInfo at h
  rw [Array.getD_eq_getD_getElem?] at h
  cases hk : s.classes[k.index]? with
  | none =>
    rw [hk] at h
    exact absurd h List.not_mem_nil
  | some info =>
    rw [hk] at h
    exact ⟨info, rfl, h⟩

end Machine

end Roteiro
