import Roteiro.Tree.Basic

/-!
# What stands inside of what

A node of a tree has parts, and between a node and a part of it a construct may begin: the body of a
function, a class, a block, the body of a loop, the step of a loop. `node.Inside Γ part` says that
`part` stands somewhere in `node`, with the constructs `Γ` around it, innermost first.

* `everywhere_iff`: a property of all parts, at the node itself and at its immediate parts.
* `Node.Throughout`: a condition on everything that stands in a node, whatever is around it.
-/

namespace Roteiro

/-- An expression or a statement. -/
inductive Node where
  | expr (e : Expr)
  | stmt (s : Stmt)

/-- A construct around a part of a program. -/
inductive Around where
  /-- The body of a function or lambda. -/
  | function (decl : FunctionDecl)
  /-- The body of a method. -/
  | method (decl : FunctionDecl)
  | classBody
  | block
  /-- The body of a loop. -/
  | loop
  /-- The step of a loop, which stands outside of its body. -/
  | step

namespace Node

/-- The immediate parts of a node, each with the constructs that begin in between. -/
def parts : Node → List (List Around × Node)
  | .expr (.literal _) => []
  | .expr (.unary _ operand) => [([], .expr operand)]
  | .expr (.binary left _ right) => [([], .expr left), ([], .expr right)]
  | .expr (.group inner) => [([], .expr inner)]
  | .expr (.logical left _ right) => [([], .expr left), ([], .expr right)]
  | .expr (.conditional test yes no) => [([], .expr test), ([], .expr yes), ([], .expr no)]
  | .expr (.var _ _) => []
  | .expr (.assign _ _ value) => [([], .expr value)]
  | .expr (.call callee _ arguments) =>
    ([], .expr callee) :: arguments.map fun e => ([], .expr e)
  | .expr (.lambda decl) => decl.body.map fun s => ([.function decl], .stmt s)
  | .expr (.array _ elements) => elements.map fun e => ([], .expr e)
  | .expr (.index _ base key) => [([], .expr base), ([], .expr key)]
  | .expr (.indexSet _ base key value) => [([], .expr base), ([], .expr key), ([], .expr value)]
  | .expr (.get object _) => [([], .expr object)]
  | .expr (.set object _ value) => [([], .expr object), ([], .expr value)]
  | .expr (.self _ _) => []
  | .stmt (.expression e) => [([], .expr e)]
  | .stmt (.print e) => [([], .expr e)]
  | .stmt (.var _ value?) => value?.toList.map fun e => ([], .expr e)
  | .stmt (.block body) => body.map fun s => ([.block], .stmt s)
  | .stmt (.ifElse test yes no?) =>
    ([], .expr test) :: ([], .stmt yes) :: no?.toList.map fun s => ([], .stmt s)
  | .stmt (.loop test body step?) =>
    ([], .expr test) :: ([.loop], .stmt body) :: step?.toList.map fun s => ([.step], .stmt s)
  | .stmt (.exitLoop _) => []
  | .stmt (.nextIteration _) => []
  | .stmt (.function decl) => decl.body.map fun s => ([.function decl], .stmt s)
  | .stmt (.result _ value?) => value?.toList.map fun e => ([], .expr e)
  | .stmt (.classDecl _ methods) =>
    methods.flatMap fun f => f.body.map fun s => ([.method f, .classBody], .stmt s)

attribute [simp] parts

end Node

/-- `node.Inside Γ part`: the part stands in the node, with the constructs `Γ` between them. -/
inductive Node.Inside : Node → List Around → Node → Prop
  | refl (node : Node) : Inside node [] node
  | part {node inner x : Node} {around Γ : List Around} (hpart : (around, inner) ∈ node.parts)
    (h : Inside inner Γ x) : Inside node (Γ ++ around) x

/-- A property of all that stands in a node, and of the constructs around it. -/
def Everywhere (P : List Around → Node → Prop) (Γ : List Around) (node : Node) : Prop :=
  ∀ {Δ x}, node.Inside Δ x → P (Δ ++ Γ) x

theorem everywhere_iff {P : List Around → Node → Prop} {Γ : List Around} {node : Node} :
    Everywhere P Γ node ↔
      P Γ node ∧ ∀ p ∈ node.parts, Everywhere P (p.1 ++ Γ) p.2 := by
  constructor
  · intro h
    refine ⟨h (.refl node), fun p hp Δ x hx => ?_⟩
    rw [← List.append_assoc]
    exact h (.part hp hx)
  · rintro ⟨hnode, hparts⟩ Δ x hx
    cases hx with
    | refl => exact hnode
    | part hpart hx =>
      rw [List.append_assoc]
      exact hparts _ hpart hx

namespace Node

/-- Everything that stands in a node satisfies `P`. -/
def Throughout (P : Node → Prop) (node : Node) : Prop := ∀ Γ x, node.Inside Γ x → P x

variable {P : Node → Prop} {node x : Node}

theorem throughout_iff :
    node.Throughout P ↔ P node ∧ ∀ p ∈ node.parts, p.2.Throughout P := by
  have heverywhere : ∀ {Γ : List Around} {x : Node},
      Everywhere (fun _ x => P x) Γ x ↔ x.Throughout P :=
    ⟨fun h _ _ hx => h hx, fun h _ _ hx => h _ _ hx⟩
  rw [← heverywhere (Γ := []), everywhere_iff]
  simp only [heverywhere]

theorem throughout_leaf (h : P node) (hparts : node.parts = []) : node.Throughout P := by
  refine throughout_iff.mpr ⟨h, ?_⟩
  rw [hparts]
  exact List.forall_mem_nil _

/-- What holds throughout a node holds throughout all that stands in it. -/
theorem Throughout.inside {Γ : List Around} (h : node.Throughout P) (hx : node.Inside Γ x) :
    x.Throughout P := by
  induction hx with
  | refl => exact h
  | part hpart _ ih => exact ih ((throughout_iff.mp h).2 _ hpart)

end Node

end Roteiro
