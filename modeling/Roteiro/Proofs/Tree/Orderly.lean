import Roteiro.Proofs.Parser.Soundness
import Roteiro.Proofs.Scope.Analysis
import Roteiro.Proofs.Tree.Inside

/-!
# Loops and branches as the grammar makes them

A declaration stands in a list of statements: what a test decides on, and what a loop repeats, binds
nothing in the scope it stands in. The step of a counted loop is kept twice, at the end of the block
that the loop repeats and beside the loop, and both copies are the same tree. Neither depends on how
names are spelled, so both hold of whatever tokens the parser accepts.

* `Node.Orderly`: this, for everything that stands in a tree.
* `Derives.orderly`: trees with a derivation are orderly.
* `orderly_of_parsed`: what the parser accepts is orderly.
-/

namespace Roteiro

open Scope Grammar

/-- A statement that binds no name in the scope it stands in. -/
def Stmt.BindsNothing : Stmt → Prop
  | .var _ _ => False
  | .function _ => False
  | .classDecl _ _ => False
  | .ifElse _ yes none => yes.BindsNothing
  | .ifElse _ yes (some no) => yes.BindsNothing ∧ no.BindsNothing
  | .loop _ body _ => body.BindsNothing
  | _ => True

theorem declared_of_bindsNothing (s : Stmt) (h : s.BindsNothing) : declared s = [] := by
  match s, h with
  | .ifElse _ yes none, h => exact declared_of_bindsNothing yes h
  | .ifElse _ yes (some no), h =>
    rw [declared, declared_of_bindsNothing yes h.1, declared_of_bindsNothing no h.2]
    rfl
  | .loop _ body _, h => exact declared_of_bindsNothing body h
  | .expression _, _ | .print _, _ | .block _, _ | .exitLoop _, _ | .nextIteration _, _
  | .result _ _, _ => rfl

namespace Node

/-- What is right about a branch or a loop, whatever stands in it. -/
def Regular : Node → Prop
  | .stmt (.ifElse _ yes none) => yes.BindsNothing
  | .stmt (.ifElse _ yes (some no)) => yes.BindsNothing ∧ no.BindsNothing
  | .stmt (.loop _ body none) => body.BindsNothing
  | .stmt (.loop _ body (some step)) =>
    ∃ b e, body = .block [b, .expression e] ∧ step = .expression e ∧ b.BindsNothing
  | _ => True

/-- All branches and loops in a tree are regular. -/
def Orderly (node : Node) : Prop := ∀ Γ x, node.Inside Γ x → x.Regular

theorem orderly_iff {node : Node} :
    node.Orderly ↔ node.Regular ∧ ∀ p ∈ node.parts, p.2.Orderly :=
  throughout_iff

theorem orderly_leaf {node : Node} (hregular : node.Regular) (hparts : node.parts = []) :
    node.Orderly :=
  throughout_leaf hregular hparts

/-- What stands in an orderly tree is orderly. -/
theorem Orderly.inside {node x : Node} {Γ : List Around} (h : node.Orderly) (hx : node.Inside Γ x) :
    x.Orderly :=
  Throughout.inside h hx

end Node

/-- All branches and loops in an expression are regular. -/
abbrev Expr.Orderly (e : Expr) : Prop := (Node.expr e).Orderly

/-- All branches and loops in a statement are regular. -/
abbrev Stmt.Orderly (s : Stmt) : Prop := (Node.stmt s).Orderly

/-- All branches and loops in a function are regular. -/
@[simp] def FunctionDecl.Orderly (f : FunctionDecl) : Prop := ∀ s ∈ f.body, s.Orderly

namespace Grammar

/-- Orderly trees of a symbol. What is no declaration binds nothing. -/
@[simp] def Symbol.Orderly : (x : Symbol) → x.Tree → Prop
  | declarations _, ss => ∀ s ∈ ss, s.Orderly
  | declaration _, s => s.Orderly
  | statement _ _, s => s.Orderly ∧ s.BindsNothing
  | methods, fs => ∀ f ∈ fs, f.Orderly
  | function _, f => f.Orderly
  | variableRest, s => s.Orderly
  | expressionStatement, s => s.Orderly ∧ s.BindsNothing
  | loopStart, s? => ∀ s ∈ s?, s.Orderly
  | optionalExpression, e? => ∀ e ∈ e?, e.Orderly
  | expression, e => e.Orderly
  | assignment, e => e.Orderly
  | conditional, e => e.Orderly
  | level _, e => e.Orderly
  | operand _, e => e.Orderly
  | unary, e => e.Orderly
  | call, e => e.Orderly
  | primary, e => e.Orderly
  | expressions, es => ∀ e ∈ es, e.Orderly
  | expressionList, es => ∀ e ∈ es, e.Orderly

section

open Node

theorem orderly_expression {e : Expr} (h : e.Orderly) : (Stmt.expression e).Orderly :=
  orderly_iff.mpr ⟨trivial, by simpa using h⟩

theorem orderly_block {ss : List Stmt} (h : ∀ s ∈ ss, s.Orderly) : (Stmt.block ss).Orderly :=
  orderly_iff.mpr ⟨trivial, by simpa using h⟩

theorem orderly_lambda {f : FunctionDecl} (h : f.Orderly) : (Expr.lambda f).Orderly :=
  orderly_iff.mpr ⟨trivial, by simpa using h⟩

theorem orderly_countedLoop {start : Option Stmt} {test step : Option Expr} {body : Stmt}
    (hstart : ∀ s ∈ start, s.Orderly) (htest : ∀ e ∈ test, e.Orderly)
    (hstep : ∀ e ∈ step, e.Orderly) (hbody : body.Orderly ∧ body.BindsNothing) :
    (Stmt.countedLoop start test step body).Orderly ∧
      (Stmt.countedLoop start test step body).BindsNothing := by
  have htest' : (test.getD (.literal (.boolean true))).Orderly := by
    cases test with
    | none => exact orderly_leaf trivial rfl
    | some e => exact htest e rfl
  -- a start only puts a block around the loop
  have hloop : (Stmt.countedLoop none test step body).Orderly ∧
      (Stmt.countedLoop none test step body).BindsNothing := by
    cases step with
    | none =>
      refine ⟨orderly_iff.mpr ⟨hbody.2, ?_⟩, hbody.2⟩
      simpa [Stmt.countedLoop] using ⟨htest', hbody.1⟩
    | some e =>
      have he := orderly_expression (hstep e rfl)
      have hblock : (Stmt.block [body, .expression e]).Orderly :=
        orderly_block (by simpa using ⟨hbody.1, he⟩)
      refine ⟨orderly_iff.mpr ⟨⟨body, e, rfl, rfl, hbody.2⟩, ?_⟩, trivial⟩
      simpa [Stmt.countedLoop] using ⟨htest', hblock, he⟩
  cases start with
  | none => exact hloop
  | some s => exact ⟨orderly_block (by simpa using ⟨hstart s rfl, hloop.1⟩), trivial⟩

/-- **Trees with a derivation are orderly.** -/
theorem Derives.orderly {x : Symbol} {ts : List Token} {t : x.Tree} (h : Derives x ts t) :
    x.Orderly t := by
  induction h with
  | noDeclarations | noMethods | noExpressions => exact List.forall_mem_nil _
  | moreDeclarations _ _ ihfirst ihothers => exact List.forall_mem_cons.mpr ⟨ihfirst, ihothers⟩
  | classDeclaration _ _ _ _ _ ih =>
    refine orderly_iff.mpr ⟨trivial, fun p hp => ?_⟩
    simp only [parts, List.mem_flatMap, List.mem_map] at hp
    obtain ⟨f, hf, s, hs, rfl⟩ := hp
    exact ih f hf s hs
  | functionDeclaration _ _ _ ih => exact orderly_iff.mpr ⟨trivial, by simpa using ih⟩
  | variableDeclaration _ _ ih => exact ih
  | statementDeclaration _ ih => exact ih.1
  | moreMethods _ _ _ _ ihmethod ihothers => exact List.forall_mem_cons.mpr ⟨ihmethod, ihothers⟩
  | function _ _ _ _ _ _ ih => exact ih
  | variableOnly => exact orderly_leaf trivial rfl
  | variableValue _ _ _ _ ih => exact orderly_iff.mpr ⟨trivial, by simpa using ih⟩
  | print _ _ _ ih => exact ⟨orderly_iff.mpr ⟨trivial, by simpa using ih⟩, trivial⟩
  | ifOnly _ _ _ _ _ ihtest ihyes =>
    exact ⟨orderly_iff.mpr ⟨ihyes.2, by simpa using ⟨ihtest, ihyes.1⟩⟩, ihyes.2⟩
  | ifElse _ _ _ _ _ _ _ ihtest ihyes ihno =>
    have hparts := And.intro ihtest (And.intro ihyes.1 ihno.1)
    exact ⟨orderly_iff.mpr ⟨⟨ihyes.2, ihno.2⟩, by simpa using hparts⟩, ihyes.2, ihno.2⟩
  | block _ _ _ ih => exact ⟨orderly_block ih, trivial⟩
  | whileLoop _ _ _ _ _ ihtest ihbody =>
    exact ⟨orderly_iff.mpr ⟨ihbody.2, by simpa using ⟨ihtest, ihbody.1⟩⟩, ihbody.2⟩
  | countedLoop _ _ _ _ _ _ _ _ ihstart ihtest ihstep ihbody =>
    exact orderly_countedLoop ihstart ihtest ihstep ihbody
  | exitLoop | nextIteration => exact ⟨orderly_leaf trivial rfl, trivial⟩
  | @result _ _ _ _ _ value? _ _ _ ih =>
    refine ⟨?_, trivial⟩
    cases value? with
    | none => exact orderly_leaf trivial rfl
    | some value => exact orderly_iff.mpr ⟨trivial, by simpa using ih value rfl⟩
  | bareExpression _ ih => exact ih
  | expressionStatement _ _ ih => exact ⟨orderly_expression ih, trivial⟩
  | noStart | noExpression => simp
  | startVariable _ _ ih => simpa using ih
  | startExpression _ ih => simpa using ih.1
  | someExpression _ ih => simpa using ih
  | step =>
    have hread : ∀ id name, (Expr.var id name).Orderly :=
      fun _ _ => orderly_leaf trivial rfl
    have hone : ∀ v, (Expr.literal v).Orderly := fun _ => orderly_leaf trivial rfl
    have hvalue : ∀ id name operator v,
        (Expr.binary (.var id name) operator (.literal v)).Orderly := fun id name _ v =>
      orderly_iff.mpr ⟨trivial, by simpa using ⟨hread id name, hone v⟩⟩
    exact orderly_iff.mpr ⟨trivial, by simpa [Expr.step] using hvalue _ _ _ _⟩
  | lambdaBlock _ _ _ _ _ _ _ ih => exact orderly_lambda ih
  | lambdaValue _ _ _ _ _ ih =>
    refine orderly_lambda (List.forall_mem_singleton.mpr ?_)
    exact orderly_iff.mpr ⟨trivial, by simpa using ih⟩
  | assignmentExpression _ ih | conditionalAssignment _ ih | noChoice _ ih | firstOperand _ ih
  | tighterOperand _ _ ih | unaryOperand _ _ ih | plain _ ih | noSuffix _ ih
  | someExpressions _ ih => exact ih
  | assignName _ _ _ ih | unary _ _ ih | property _ _ _ ih | group _ _ _ ih | array _ _ _ ih =>
    exact orderly_iff.mpr ⟨trivial, by simpa using ih⟩
  | assignProperty _ _ _ _ _ ih ih' | entry _ _ _ _ ih ih' | call _ _ _ _ _ ih ih' =>
    exact orderly_iff.mpr ⟨trivial, by simpa using ⟨ih, ih'⟩⟩
  | assignEntry _ _ _ _ _ _ ihbase ihkey ihvalue =>
    exact orderly_iff.mpr ⟨trivial, by simpa using ⟨ihbase, ihkey, ihvalue⟩⟩
  | choice _ _ _ _ _ ihtest ihyes ihno =>
    exact orderly_iff.mpr ⟨trivial, by simpa using ⟨ihtest, ihyes, ihno⟩⟩
  | @join l _ _ _ _ _ _ _ _ ihleft ihright =>
    have hparts := And.intro ihleft ihright
    cases l <;> exact orderly_iff.mpr ⟨trivial, by simpa [Parser.Level.join] using hparts⟩
  | constant | receiver | name => exact orderly_leaf trivial rfl
  | lastExpression _ ih => exact List.forall_mem_singleton.mpr ih
  | moreExpressions _ _ _ ih ihothers => exact List.forall_mem_cons.mpr ⟨ih, ihothers⟩

end

end Grammar

/-- The body of an orderly counted loop binds nothing. -/
theorem bindsNothing_of_countedLoop {start : Option Stmt} {test step : Option Expr} {body : Stmt}
    (h : (Stmt.countedLoop start test step body).Orderly) : body.BindsNothing := by
  have hloop : (Stmt.countedLoop none test step body).Orderly := by
    cases start with
    | none => exact h
    | some s => exact (Node.orderly_iff.mp h).2 ([.block], _) (by simp [Stmt.countedLoop])
  have hregular := (Node.orderly_iff.mp hloop).1
  cases step with
  | none => exact hregular
  | some e =>
    obtain ⟨b, e', hblock, -, hb⟩ := hregular
    cases hblock
    exact hb

/-- **What the parser accepts is orderly.** -/
theorem orderly_of_parsed {tokens : List Token} {firstId : Nat} {program : List Stmt}
    (h : (Parser.parseProgram tokens firstId).tree? = some program) : ∀ s ∈ program, s.Orderly :=
  (Parser.parseProgram_builds h).1.orderly

end Roteiro
