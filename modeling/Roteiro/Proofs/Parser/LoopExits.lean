import Roteiro.Proofs.Parser.Complaints
import Roteiro.Proofs.Scope.Findings

/-!
# Where loops are left

The parser counts the open loops while it reads, and refuses `pare` and `continue` where there is
none. The analysis of scopes counts them once more, in the tree. Both start afresh with every
function, but the one counts over tokens, past the faults that it recovers from, and the other in a
tree in which a counted loop is a loop in a block, with a copy of its step beside it.

They come to the same: in what the parser accepts the analysis finds no exit out of place. The
grammar derives an exit only where a loop stands around it, and wherever the analysis comes by it,
the body of that loop has been entered.

* `Derives.noExit`: the analysis says nothing about the exits in a tree with a derivation.
* `Leading.loops`: a rule ends with as many open loops as it was started with.
* `exits_agree`: both counts agree.
-/

namespace Roteiro

/-- A complaint of the analysis about `pare` or `continue` outside of all loops. -/
def Report.AboutExit (r : Report) : Prop :=
  ∃ keyword, r = .resolve keyword .breakOutsideLoop ∨ r = .resolve keyword .continueOutsideLoop

namespace Scope

/-- None of the complaints is about an exit out of place. -/
def NoExit (rs : List Report) : Prop := ∀ r ∈ rs, ¬ r.AboutExit

variable {rs rs' : List Report}

@[simp] theorem noExit_nil : NoExit [] := List.forall_mem_nil _

@[simp] theorem noExit_append : NoExit (rs ++ rs') ↔ NoExit rs ∧ NoExit rs' :=
  List.forall_mem_append

/-- The complaints that have another cause. -/
theorem noExit_single {t : Token} {cause : Cause} (hbreak : cause ≠ .breakOutsideLoop)
    (hcontinue : cause ≠ .continueOutsideLoop) : NoExit [.resolve t cause] := by
  simp [NoExit, Report.AboutExit, hbreak, hcontinue]

theorem noExit_if {p : Prop} [Decidable p] (hrs : NoExit rs) (hrs' : NoExit rs') :
    NoExit (if p then rs else rs') := by
  split
  · exact hrs
  · exact hrs'

@[simp] theorem noExit_clashes (p : Place) (names : List Token) : NoExit (p.clashes names) := by
  induction names generalizing p with
  | nil => exact noExit_nil
  | cons name names ih =>
    exact noExit_append.mpr ⟨noExit_if (noExit_single (by decide) (by decide)) noExit_nil, ih _⟩

/-- Where a loop stands around the tree, if that is asked for, its exits are in place. -/
def QuietIn (inLoop : Bool) (findings : Body → Bool → Place → List Report) : Prop :=
  ∀ around inLoop' p, (inLoop = true → inLoop' = true) → NoExit (findings around inLoop' p)

/-- A tree that asks for no loop around it may stand anywhere. -/
theorem QuietIn.noExit {findings : Body → Bool → Place → List Report}
    (h : QuietIn false findings) (around : Body) (inLoop : Bool) (p : Place) :
    NoExit (findings around inLoop p) := h around inLoop p nofun

end Scope

open Scope

namespace Grammar

/-- The analysis says nothing about the exits in a tree of a symbol. -/
def Symbol.NoExit : (x : Symbol) → x.Tree → Prop
  | declarations inLoop, ss => QuietIn inLoop (findingsOfStmts ss)
  | declaration inLoop, s => QuietIn inLoop s.findings
  | statement inLoop _, s => QuietIn inLoop s.findings
  | methods, fs => ∀ p, Scope.NoExit (findingsOfMethods fs p)
  | function _, f => ∀ body p, Scope.NoExit (f.findings body p)
  | variableRest, s => QuietIn false s.findings
  | expressionStatement, s => QuietIn false s.findings
  | loopStart, s? => ∀ s ∈ s?, QuietIn false s.findings
  | optionalExpression, e? => ∀ e ∈ e?, ∀ p, Scope.NoExit (e.findings p)
  | expression, e => ∀ p, Scope.NoExit (e.findings p)
  | assignment, e => ∀ p, Scope.NoExit (e.findings p)
  | conditional, e => ∀ p, Scope.NoExit (e.findings p)
  | level _, e => ∀ p, Scope.NoExit (e.findings p)
  | operand _, e => ∀ p, Scope.NoExit (e.findings p)
  | unary, e => ∀ p, Scope.NoExit (e.findings p)
  | call, e => ∀ p, Scope.NoExit (e.findings p)
  | primary, e => ∀ p, Scope.NoExit (e.findings p)
  | expressions, es => ∀ p, Scope.NoExit (findingsOfExprs es p)
  | expressionList, es => ∀ p, Scope.NoExit (findingsOfExprs es p)

/-- A statement in which no exit depends on the loops around it may stand in any of them. -/
theorem QuietIn.anywhere {findings : Body → Bool → Place → List Report}
    (h : QuietIn false findings) (inLoop : Bool) : QuietIn inLoop findings :=
  fun around inLoop' p _ => h.noExit around inLoop' p

theorem noExit_function {name? : Option Token} {params : List Token} {statements : List Stmt}
    (h : QuietIn false (findingsOfStmts statements)) (body : Body) (p : Place) :
    Scope.NoExit (FunctionDecl.findings ⟨name?, params, statements⟩ body p) := by
  simp [FunctionDecl.findings, h.noExit body false]

theorem quietIn_result (keyword : Token) {value? : Option Expr}
    (h : ∀ e ∈ value?, ∀ p, Scope.NoExit (e.findings p)) :
    QuietIn false (Stmt.result keyword value?).findings := by
  intro around inLoop' p _
  have hprogram :
      Scope.NoExit (if around = .program then [.resolve keyword .topLevelReturn] else []) :=
    noExit_if (noExit_single (by decide) (by decide)) noExit_nil
  cases value? with
  | none => exact hprogram
  | some e =>
    have hinitializer :
        Scope.NoExit
          (if around = .initializer then [.resolve keyword .initializerReturn] else []) :=
      noExit_if (noExit_single (by decide) (by decide)) noExit_nil
    exact noExit_append.mpr ⟨hprogram, noExit_append.mpr ⟨hinitializer, h e rfl p⟩⟩

/-- A counted loop: the body stands in the loop, and the step in no place where an exit could. -/
theorem quietIn_countedLoop {inLoop : Bool} {start : Option Stmt} {test step : Option Expr}
    {body : Stmt} (hstart : ∀ s ∈ start, QuietIn false s.findings)
    (htest : ∀ e ∈ test, ∀ p, Scope.NoExit (e.findings p))
    (hstep : ∀ e ∈ step, ∀ p, Scope.NoExit (e.findings p)) (hbody : QuietIn true body.findings) :
    QuietIn inLoop (Stmt.countedLoop start test step body).findings := by
  have htest' : ∀ p, Scope.NoExit ((test.getD (.literal (.boolean true))).findings p) := by
    cases test with
    | none => exact fun p => noExit_nil
    | some e => exact htest e rfl
  have hloop : ∀ inLoop, QuietIn inLoop (Stmt.countedLoop none test step body).findings := by
    intro inLoop around inLoop' p _
    have hinside := fun p => hbody around true p fun _ => rfl
    cases step with
    | none => simp [Stmt.countedLoop, Stmt.findings, htest', hinside]
    | some e =>
      have he := hstep e rfl
      simp [Stmt.countedLoop, Stmt.findings, findingsOfStmts, htest', hinside, he]
  cases start with
  | none => exact hloop inLoop
  | some s =>
    intro around inLoop' p _
    have hs := fun p => (hstart s rfl).noExit around inLoop' p
    have hrest := fun p => hloop inLoop' around inLoop' p id
    have hblock : (Stmt.countedLoop (some s) test step body).findings around inLoop' p =
        s.findings around inLoop' (p.inside []) ++
          ((Stmt.countedLoop none test step body).findings around inLoop'
            ((p.inside []).after (declared s)) ++ []) := rfl
    simp [hblock, hs, hrest]

/-- **In a tree with a derivation the exits are in place**, wherever the analysis comes by them. -/
theorem Derives.noExit {x : Symbol} {ts : List Token} {t : x.Tree} (h : Derives x ts t) :
    x.NoExit t := by
  induction h with
  | noDeclarations => exact fun _ _ _ _ => noExit_nil
  | moreDeclarations _ _ ihfirst ihothers =>
    intro around inLoop' p hloop
    exact noExit_append.mpr ⟨ihfirst _ _ _ hloop, ihothers _ _ _ hloop⟩
  | classDeclaration _ _ _ _ _ ih =>
    exact fun _ _ _ _ => noExit_append.mpr ⟨noExit_clashes _ _, ih _⟩
  | functionDeclaration _ _ _ ih =>
    exact fun _ _ _ _ => noExit_append.mpr ⟨noExit_clashes _ _, ih _ _⟩
  | variableDeclaration _ _ ih => exact QuietIn.anywhere ih _
  | statementDeclaration _ ih => exact ih
  | noMethods | noExpressions => exact fun _ => noExit_nil
  | moreMethods _ _ _ _ ihmethod ihothers =>
    exact fun _ => noExit_append.mpr ⟨ihmethod _ _, ihothers _⟩
  | function _ _ _ _ _ _ ih => exact noExit_function ih
  | variableOnly => exact fun _ _ _ _ => noExit_clashes _ _
  | variableValue _ _ _ _ ih =>
    exact fun _ _ _ _ => noExit_append.mpr ⟨noExit_clashes _ _, ih _⟩
  | print _ _ _ ih => exact fun _ _ _ _ => ih _
  | ifOnly _ _ _ _ _ ihtest ihyes =>
    exact fun _ _ _ hloop => noExit_append.mpr ⟨ihtest _, ihyes _ _ _ hloop⟩
  | ifElse _ _ _ _ _ _ _ ihtest ihyes ihno =>
    intro around inLoop' p hloop
    have hyes := ihyes around inLoop' p hloop
    have hno := fun p => ihno around inLoop' p hloop
    exact noExit_append.mpr ⟨ihtest p, noExit_append.mpr ⟨hyes, hno _⟩⟩
  | block _ _ _ ih => exact fun _ _ _ hloop => ih _ _ _ hloop
  | whileLoop _ _ _ _ _ ihtest ihbody =>
    exact fun _ _ _ _ => noExit_append.mpr ⟨ihtest _, ihbody _ _ _ fun _ => rfl⟩
  | countedLoop _ _ _ _ _ _ _ _ ihstart ihtest ihstep ihbody =>
    exact quietIn_countedLoop ihstart ihtest ihstep ihbody
  | exitLoop | nextIteration =>
    -- a loop stands around it
    intro around inLoop' p hloop
    simp [Stmt.findings, hloop]
  | result _ _ _ ih => exact QuietIn.anywhere (quietIn_result _ ih) _
  | bareExpression _ ih => exact QuietIn.anywhere ih _
  | expressionStatement _ _ ih => exact fun _ _ _ _ => ih _
  | noStart | noExpression => rintro _ ⟨⟩
  | startVariable _ _ ih | startExpression _ ih | someExpression _ ih =>
    rintro _ ⟨⟩
    exact ih
  | step =>
    intro p
    exact noExit_append.mpr
      ⟨noExit_if (noExit_single (by decide) (by decide)) noExit_nil, noExit_nil⟩
  | lambdaBlock _ _ _ _ _ _ _ ih => exact noExit_function ih .function
  | @lambdaValue _ _ arrow _ _ _ value _ _ _ _ _ ih =>
    have hvalue : ∀ p, Scope.NoExit (value.findings p) := ih
    have hresult : QuietIn false (Stmt.result arrow (some value)).findings :=
      quietIn_result arrow (by simpa using hvalue)
    refine noExit_function (fun around inLoop' p h => ?_) .function
    exact noExit_append.mpr ⟨hresult around inLoop' p h, noExit_nil⟩
  | assignmentExpression _ ih | conditionalAssignment _ ih | noChoice _ ih | firstOperand _ ih
  | tighterOperand _ _ ih | unaryOperand _ _ ih | plain _ ih | noSuffix _ ih
  | someExpressions _ ih => exact ih
  | assignName _ _ _ ih | unary _ _ ih | property _ _ _ ih | group _ _ _ ih | array _ _ _ ih =>
    exact ih
  | assignProperty _ _ _ _ _ ih ih' | entry _ _ _ _ ih ih' | call _ _ _ _ _ ih ih' =>
    exact fun p => noExit_append.mpr ⟨ih p, ih' p⟩
  | assignEntry _ _ _ _ _ _ ihbase ihkey ihvalue =>
    exact fun p => noExit_append.mpr ⟨ihbase p, noExit_append.mpr ⟨ihkey p, ihvalue p⟩⟩
  | choice _ _ _ _ _ ihtest ihyes ihno =>
    exact fun p => noExit_append.mpr ⟨ihtest p, noExit_append.mpr ⟨ihyes p, ihno p⟩⟩
  | @join l _ _ _ _ _ _ _ _ ihleft ihright =>
    have hboth := fun p => noExit_append.mpr ⟨ihleft p, ihright p⟩
    cases l <;> exact hboth
  | constant => exact fun _ => noExit_nil
  | receiver => exact fun p => noExit_if noExit_nil (noExit_single (by decide) (by decide))
  | name => exact fun p => noExit_if (noExit_single (by decide) (by decide)) noExit_nil
  | lastExpression _ ih => exact fun p => noExit_append.mpr ⟨ih p, noExit_nil⟩
  | moreExpressions _ _ _ ih ih' => exact fun p => noExit_append.mpr ⟨ih p, ih' p⟩

end Grammar

namespace Parser

section Loops

variable {α : Type} (rule : Rule α) [Leading rule] {s : State}

/-- **A rule ends with as many open loops as it was started with**, well or not. -/
theorem Leading.loops (hs : s.Proper) : (stateOf (rule s)).loops = s.loops :=
  (leads_of rule s hs).loops

/-- The body of a loop is read with one more open loop, and there is one less when it has been read:
it makes no difference whether the count is taken down by one or put back to what it was. -/
theorem loops_of_body (hs : s.Proper) :
    (stateOf (rule { s with loops := s.loops + 1 })).loops - 1 = s.loops := by
  rw [Leading.loops rule (s := { s with loops := s.loops + 1 }) hs, Nat.add_sub_cancel]

end Loops

/-- **The parser and the analysis agree on the exits of loops.** Whatever the tokens are: if the
parser accepts them, then the analysis complains about no exit, whatever depths were found before.
And when the parser has come to its end, with or without complaints, no loop is open; nor is one in
between that was not open before: wherever the body of a loop is read, the count is one higher
before and behind it, whether it comes to a fault or not, and wherever the body of a function is
read, it is zero before and behind it. -/
theorem exits_agree (tokens : List Token) (firstId : Nat) :
    (∀ program, (parseProgram tokens firstId).tree? = some program → ∀ T,
      ∀ r ∈ (resolve program T).reports, ¬ r.AboutExit) ∧
    (∀ fuel, (stateOf (declarations fuel false (.ofTokens tokens firstId))).loops = 0) ∧
    (∀ fuel, (stateOf (expression fuel (.ofTokens tokens firstId))).loops = 0) ∧
    ∀ (fuel : Nat) (s : State), s.Proper →
      (stateOf (statement fuel { s with loops := s.loops + 1 })).loops - 1 = s.loops ∧
      (stateOf (block fuel { s with loops := 0 })).loops = 0 := by
  have hs := proper_ofTokens tokens firstId
  refine ⟨fun program hparsed T r hr => ?_, fun fuel => Leading.loops _ hs,
    fun fuel => Leading.loops _ hs,
    fun fuel s hs => ⟨loops_of_body _ hs, Leading.loops (s := { s with loops := 0 }) _ hs⟩⟩
  have hquiet := (parseProgram_derives hparsed).noExit .program false ⟨[], false⟩ id
  rw [← Array.mem_toList_iff, reports_resolve] at hr
  exact hquiet r hr

/-- Loops in a lambda in the step of a loop, and in a function in its body, the tokens of
`repita (;; () => { repita (;;) pare; }) { funcao f() { enquanto (a) continue; } pare; }`. -/
def loopsApart : List Token :=
  [⟨.forKw, "repita", 1⟩, ⟨.leftParen, "(", 1⟩, ⟨.semicolon, ";", 1⟩, ⟨.semicolon, ";", 1⟩,
   ⟨.leftParen, "(", 1⟩, ⟨.rightParen, ")", 1⟩, ⟨.arrow, "=>", 1⟩, ⟨.leftBrace, "\x7b", 1⟩,
   ⟨.forKw, "repita", 1⟩, ⟨.leftParen, "(", 1⟩, ⟨.semicolon, ";", 1⟩, ⟨.semicolon, ";", 1⟩,
   ⟨.rightParen, ")", 1⟩, ⟨.breakKw, "pare", 1⟩, ⟨.semicolon, ";", 1⟩, ⟨.rightBrace, "\x7d", 1⟩,
   ⟨.rightParen, ")", 1⟩, ⟨.leftBrace, "\x7b", 1⟩, ⟨.functionKw, "funcao", 1⟩,
   ⟨.identifier, "f", 1⟩, ⟨.leftParen, "(", 1⟩, ⟨.rightParen, ")", 1⟩, ⟨.leftBrace, "\x7b", 1⟩,
   ⟨.whileKw, "enquanto", 1⟩, ⟨.leftParen, "(", 1⟩, ⟨.identifier, "a", 1⟩, ⟨.rightParen, ")", 1⟩,
   ⟨.continueKw, "continue", 1⟩, ⟨.semicolon, ";", 1⟩, ⟨.rightBrace, "\x7d", 1⟩,
   ⟨.breakKw, "pare", 1⟩, ⟨.semicolon, ";", 1⟩, ⟨.rightBrace, "\x7d", 1⟩, ⟨.endOfInput, "", 1⟩]

theorem loopsApart_agree :
    ∃ program, (parseProgram loopsApart 0).tree? = some program ∧
      ∀ T, ∀ r ∈ (resolve program T).reports, ¬ r.AboutExit := by
  have haccepted : (parseProgram loopsApart 0).tree?.isSome = true := by decide +kernel
  obtain ⟨program, hparsed⟩ := Option.isSome_iff_exists.mp haccepted
  exact ⟨program, hparsed, (exits_agree loopsApart 0).1 program hparsed⟩

end Parser

end Roteiro
