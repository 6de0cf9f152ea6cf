import Mathlib.Data.List.Nodup
import Roteiro.Proofs.Grammar
import Roteiro.Proofs.Scope.Surroundings

/-!
# The roles of tokens

A token of a program declares a variable or a parameter, or it names a function or a class, or it is
an occurrence of a name or of the receiver, or it has nothing to do with names of variables.
`Expr.uses` and its companions list the tokens of a tree with their roles and with the scopes around
them.

A tree may have a token twice: a counting step reads and assigns one name, and a counted loop has
two copies of its step. But in a tree that is spelled by some tokens each of them has one role. So
if the tokens are numbered by their lines, the line tells the role.

* `Derives.covered`: the tokens that spell a tree have one role each.
* `Covered.role_unique`: the line of a token tells its role.
-/

namespace Roteiro

namespace Scope

/-- What a token has to do with names of variables. -/
inductive Role where
  /-- It declares a variable or a parameter in the innermost of the scopes. -/
  | declaration (Γ : List Layer) (name : String)
  /-- It reads or assigns a variable, with these scopes around it. -/
  | occurrence (Γ : List Layer) (name : String)
  /-- It names a function or a class. -/
  | named (name : String)
  /-- It stands for the receiver, by one of its names. -/
  | receiver (name : String)
  | word

/-- The spelling of a token, if it is a name. -/
def Role.name? : Role → Option String
  | declaration _ name => some name
  | occurrence _ name => some name
  | named name => some name
  | receiver name => some name
  | word => none

/-- The kind of a token that is a name or the receiver. -/
def Role.kind? : Role → Option Kind
  | declaration _ _ => some .identifier
  | occurrence _ _ => some .identifier
  | named _ => some .identifier
  | receiver _ => some .selfKw
  | word => none

/-- A token at its place in a tree. -/
structure Use where
  line : Nat
  role : Role
  /-- The number of an occurrence. -/
  id? : Option Nat

namespace Use

def declaration (Γ : List Layer) (t : Token) : Use := ⟨t.line, .declaration Γ t.lexeme, none⟩

def occurrence (Γ : List Layer) (id : Nat) (t : Token) : Use :=
  ⟨t.line, .occurrence Γ t.lexeme, some id⟩

def named (t : Token) : Use := ⟨t.line, .named t.lexeme, none⟩

def receiver (t : Token) : Use := ⟨t.line, .receiver t.lexeme, none⟩

def word (t : Token) : Use := ⟨t.line, .word, none⟩

end Use

end Scope

open Scope

mutual

/-- The tokens of an expression with the scopes `Γ` around it. -/
def Expr.uses : Expr → List Layer → List Use
  | .literal _, _ => []
  | .unary operator operand, Γ => .word operator :: operand.uses Γ
  | .binary left operator right, Γ => left.uses Γ ++ .word operator :: right.uses Γ
  | .group inner, Γ => inner.uses Γ
  | .logical left operator right, Γ => left.uses Γ ++ .word operator :: right.uses Γ
  | .conditional test yes no, Γ => test.uses Γ ++ (yes.uses Γ ++ no.uses Γ)
  | .var id name, Γ => [.occurrence Γ id name]
  | .assign id name value, Γ => .occurrence Γ id name :: value.uses Γ
  | .call callee paren arguments, Γ =>
    callee.uses Γ ++ (usesOfExprs arguments Γ ++ [.word paren])
  | .lambda decl, Γ => decl.name?.toList.map .named ++ decl.uses Γ
  | .array bracket elements, Γ => .word bracket :: usesOfExprs elements Γ
  | .index bracket base key, Γ => base.uses Γ ++ .word bracket :: key.uses Γ
  | .indexSet bracket base key value, Γ =>
    base.uses Γ ++ .word bracket :: (key.uses Γ ++ value.uses Γ)
  | .get object name, Γ => object.uses Γ ++ [.word name]
  | .set object name value, Γ => object.uses Γ ++ .word name :: value.uses Γ
  | .self _ keyword, _ => [.receiver keyword]

def usesOfExprs : List Expr → List Layer → List Use
  | [], _ => []
  | e :: es, Γ => e.uses Γ ++ usesOfExprs es Γ

/-- The tokens of a statement with the scopes `Γ` around it. -/
def Stmt.uses : Stmt → List Layer → List Use
  | .expression expr, Γ => expr.uses Γ
  | .print expr, Γ => expr.uses Γ
  | .var name none, Γ => [.declaration Γ name]
  | .var name (some value), Γ => .declaration Γ name :: value.uses (started Γ name)
  | .block body, Γ => usesOfStmts body (.ofBlock body :: Γ)
  | .ifElse test yes none, Γ => test.uses Γ ++ yes.uses Γ
  | .ifElse test yes (some no), Γ => test.uses Γ ++ (yes.uses Γ ++ no.uses Γ)
  | .loop test body none, Γ => test.uses Γ ++ body.uses Γ
  | .loop test body (some step), Γ =>
    test.uses Γ ++ (body.uses Γ ++ step.uses (.ofBlock [step] :: Γ))
  | .exitLoop keyword, _ => [.word keyword]
  | .nextIteration keyword, _ => [.word keyword]
  | .function decl, Γ =>
    decl.name?.toList.map .named ++ decl.uses (introduced Γ decl.name?.toList)
  | .result keyword none, _ => [.word keyword]
  | .result keyword (some value), Γ => .word keyword :: value.uses Γ
  | .classDecl name methods, Γ => .named name :: usesOfMethods methods (introduced Γ [name])

def usesOfStmts : List Stmt → List Layer → List Use
  | [], _ => []
  | s :: ss, Γ => s.uses Γ ++ usesOfStmts ss (introduced Γ (declared s))

/-- The parameters and the tokens of the body. -/
def FunctionDecl.uses : FunctionDecl → List Layer → List Use
  | ⟨name?, params, body⟩, Γ =>
    params.map (.declaration (.ofCall ⟨name?, params, body⟩ :: Γ)) ++
      usesOfStmts body (.ofCall ⟨name?, params, body⟩ :: Γ)

def usesOfMethods : List FunctionDecl → List Layer → List Use
  | [], _ => []
  | f :: fs, Γ =>
    f.name?.toList.map .named ++ (f.uses (.receiver f :: Γ) ++ usesOfMethods fs Γ)

end

attribute [simp] Expr.uses usesOfExprs Stmt.uses usesOfStmts FunctionDecl.uses usesOfMethods

namespace Scope

/-! ### One role for each token -/

/-- It is the use of a token. -/
structure Use.Of (u : Use) (t : Token) : Prop where
  line : u.line = t.line
  name : ∀ name ∈ u.role.name?, name = t.lexeme
  kind : ∀ kind ∈ u.role.kind?, kind = t.kind

/-- Each use is that of one of the tokens, all of which have one role. -/
def Covered (ts : List Token) (us : List Use) : Prop :=
  ∃ roles : List (Token × Role), roles.map Prod.fst = ts ∧
    ∀ u ∈ us, ∃ t, (t, u.role) ∈ roles ∧ u.Of t

theorem Use.word_of {t t' : Token} (h : t'.line = t.line) : (Use.word t').Of t := ⟨h, nofun, nofun⟩

section Names

variable {t : Token} (h : t.kind = .identifier)

include h

theorem Use.named_of : (Use.named t).Of t :=
  ⟨rfl, by simp [named, Role.name?], by simp [named, Role.kind?, h]⟩

theorem Use.declaration_of (Γ : List Layer) : (Use.declaration Γ t).Of t :=
  ⟨rfl, by simp [declaration, Role.name?], by simp [declaration, Role.kind?, h]⟩

theorem Use.occurrence_of (Γ : List Layer) (id : Nat) : (Use.occurrence Γ id t).Of t :=
  ⟨rfl, by simp [occurrence, Role.name?], by simp [occurrence, Role.kind?, h]⟩

end Names

theorem Use.receiver_of {t : Token} (h : t.kind = .selfKw) : (Use.receiver t).Of t :=
  ⟨rfl, by simp [receiver, Role.name?], by simp [receiver, Role.kind?, h]⟩

namespace Covered

variable {ts ts' : List Token} {us us' : List Use} {t : Token}

theorem none (ts : List Token) : Covered ts [] :=
  ⟨ts.map fun t => (t, .word), by simp [Function.comp_def], nofun⟩

theorem append (h : Covered ts us) (h' : Covered ts' us') : Covered (ts ++ ts') (us ++ us') := by
  obtain ⟨roles, htokens, huses⟩ := h
  obtain ⟨roles', htokens', huses'⟩ := h'
  refine ⟨roles ++ roles', by rw [List.map_append, htokens, htokens'], fun u hu => ?_⟩
  rcases List.mem_append.mp hu with hu | hu
  · obtain ⟨t, ht, hof⟩ := huses u hu
    exact ⟨t, List.mem_append_left _ ht, hof⟩
  · obtain ⟨t, ht, hof⟩ := huses' u hu
    exact ⟨t, List.mem_append_right _ ht, hof⟩

theorem mono (h : Covered ts us) (hsub : us' ⊆ us) : Covered ts us' := by
  obtain ⟨roles, htokens, huses⟩ := h
  exact ⟨roles, htokens, fun u hu => huses u (hsub hu)⟩

/-- A token may have several uses, in one role. -/
theorem token {r : Role} (h : ∀ u ∈ us, u.role = r ∧ u.Of t) : Covered [t] us := by
  refine ⟨[(t, r)], rfl, fun u hu => ⟨t, ?_, (h u hu).2⟩⟩
  rw [(h u hu).1]
  exact List.mem_singleton_self _

/-- A token in front that is used once. -/
theorem cons {u : Use} (hu : u.Of t) (h : Covered ts us) : Covered (t :: ts) (u :: us) := by
  have hfirst : Covered [t] [u] := token (r := u.role) (by simpa using hu)
  exact hfirst.append h

/-- A token in front that is not in the tree. -/
theorem skip (t : Token) (h : Covered ts us) : Covered (t :: ts) us := append (none [t]) h

/-- Tokens behind that are not in the tree. -/
theorem ending (h : Covered ts us) (more : List Token) : Covered (ts ++ more) us := by
  simpa using h.append (none more)

theorem exists_of (h : Covered ts us) {u : Use} (hu : u ∈ us) : ∃ t ∈ ts, u.Of t := by
  obtain ⟨roles, rfl, huses⟩ := h
  obtain ⟨t, ht, hof⟩ := huses u hu
  exact ⟨t, List.mem_map_of_mem ht, hof⟩

/-- **The line of a token tells its role**, where no two tokens are on one line. -/
theorem role_unique (h : Covered ts us) (hts : (ts.map Token.line).Nodup) {u v : Use} (hu : u ∈ us)
    (hv : v ∈ us) (hline : u.line = v.line) : u.role = v.role := by
  obtain ⟨roles, rfl, huses⟩ := h
  obtain ⟨t, ht, hof⟩ := huses u hu
  obtain ⟨t', ht', hof'⟩ := huses v hv
  rw [List.map_map] at hts
  have hlines : t.line = t'.line := hof.line.symm.trans (hline.trans hof'.line)
  exact congrArg Prod.snd (List.inj_on_of_nodup_map hts ht ht' hlines)

end Covered

end Scope

namespace Grammar

/-- The uses of the tokens in the trees of a symbol. -/
def Symbol.uses : (x : Symbol) → x.Tree → List Layer → List Use
  | declarations _, ss, Γ => usesOfStmts ss Γ
  | declaration _, s, Γ => s.uses Γ
  | statement _ _, s, Γ => s.uses Γ
  | methods, fs, Γ => usesOfMethods fs Γ
  | function _, f, Γ => f.uses Γ
  | variableRest, s, Γ => s.uses Γ
  | expressionStatement, s, Γ => s.uses Γ
  | loopStart, s?, Γ => (s?.map fun s => s.uses Γ).getD []
  | optionalExpression, e?, Γ => (e?.map fun e => e.uses Γ).getD []
  | expression, e, Γ => e.uses Γ
  | assignment, e, Γ => e.uses Γ
  | conditional, e, Γ => e.uses Γ
  | level _, e, Γ => e.uses Γ
  | operand _, e, Γ => e.uses Γ
  | unary, e, Γ => e.uses Γ
  | call, e, Γ => e.uses Γ
  | primary, e, Γ => e.uses Γ
  | expressions, es, Γ => usesOfExprs es Γ
  | expressionList, es, Γ => usesOfExprs es Γ

/-- A statement that is no declaration declares nothing. -/
def Symbol.Plain : (x : Symbol) → x.Tree → Prop
  | statement _ _, s => declared s = []
  | expressionStatement, s => declared s = []
  | _, _ => True

theorem plain_countedLoop (start : Option Stmt) (test step : Option Expr) {body : Stmt}
    (h : declared body = []) : declared (.countedLoop start test step body) = [] := by
  cases start <;> cases step <;> simp [Stmt.countedLoop, declared, h]

theorem Derives.declaresNothing {x : Symbol} {ts : List Token} {t : x.Tree} (h : Derives x ts t) :
    x.Plain t := by
  induction h with
  | ifOnly _ _ _ _ _ _ ih => exact ih
  | ifElse _ _ _ _ _ _ _ _ ihyes ihno =>
    exact List.append_eq_nil_iff.mpr ⟨ihyes, ihno⟩
  | whileLoop _ _ _ _ _ _ ih => exact ih
  | countedLoop _ _ _ _ _ _ _ _ _ _ _ ih => exact plain_countedLoop _ _ _ ih
  | bareExpression _ ih => exact ih
  | print | block | exitLoop | nextIteration | result | expressionStatement => rfl
  | _ => trivial

theorem covered_names {ts names : List Token} (h : Names ts names) (Γ : List Layer) :
    Covered ts (names.map (.declaration Γ)) := by
  induction h with
  | last hname => exact .cons (Use.declaration_of hname Γ) (.none [])
  | more hname _ _ ih => exact .cons (Use.declaration_of hname Γ) (ih.skip _)

theorem covered_parameters {ts params : List Token} (h : Parameters ts params) (Γ : List Layer) :
    Covered ts (params.map (.declaration Γ)) := by
  rcases h.1 with ⟨rfl, rfl⟩ | hnames
  · exact .none []
  · exact covered_names hnames Γ

/-- The step of a counted loop has the same scopes around it in either copy. -/
theorem covered_loop {ts us vs : List Token} {test step : Option Expr} {body : Stmt}
    (semicolon closing : Token)
    (htest : ∀ Γ, Covered ts (Symbol.uses .optionalExpression test Γ))
    (hstep : ∀ Γ, Covered us (Symbol.uses .optionalExpression step Γ))
    (hbody : ∀ Γ, Covered vs (body.uses Γ)) (hplain : declared body = []) (Γ : List Layer) :
    Covered (ts ++ semicolon :: (us ++ closing :: vs))
      ((Stmt.countedLoop none test step body).uses Γ) := by
  have htest' : ∀ Γ, Covered ts ((test.getD (.literal (.boolean true))).uses Γ) := by
    intro Γ
    cases test with
    | none => exact htest Γ
    | some e => exact htest Γ
  cases step with
  | none => exact (htest' Γ).append (((hstep Γ).append ((hbody Γ).skip closing)).skip semicolon)
  | some e =>
    let block := Layer.ofBlock [body, .expression e]
    have hlayer : Layer.ofBlock [.expression e] = block := by
      have hbody : declaredBy [body, .expression e] = [] := by simp [declaredBy, declared, hplain]
      exact (ofBlock_of_declaredBy rfl).trans (ofBlock_of_declaredBy hbody).symm
    have hparts := (htest' Γ).append
      (((hstep (block :: Γ)).append ((hbody (block :: Γ)).skip closing)).skip semicolon)
    refine hparts.mono fun u hu => ?_
    simp only [Stmt.countedLoop, Option.map_some, Stmt.uses, usesOfStmts, hplain, introduced_nil,
      hlayer, List.append_nil, List.mem_append] at hu ⊢
    have he : Symbol.uses .optionalExpression (some e) (block :: Γ) = e.uses (block :: Γ) := rfl
    rw [he]
    rcases hu with hu | (hu | hu) | hu
    · exact .inl hu
    · exact .inr (.inr hu)
    · exact .inr (.inl hu)
    · exact .inr (.inl hu)

/-- **The tokens that spell a tree have one role each.** -/
theorem Derives.covered {x : Symbol} {ts : List Token} {t : x.Tree} (h : Derives x ts t)
    (Γ : List Layer) : Covered ts (x.uses t Γ) := by
  induction h generalizing Γ with
  | noDeclarations | noMethods | noExpressions | noExpression => exact .none []
  | moreDeclarations _ _ ihfirst ihothers => exact (ihfirst Γ).append (ihothers _)
  | classDeclaration _ hname _ _ _ ih =>
    exact .skip _ (.cons (Use.named_of hname) (.skip _ ((ih _).ending _)))
  | functionDeclaration _ hname hdecl ih =>
    cases hdecl
    exact .skip _ (.cons (Use.named_of hname) (ih _))
  | variableDeclaration _ _ ih => exact .skip _ (ih Γ)
  | statementDeclaration _ ih => exact ih Γ
  | @moreMethods front _ _ _ _ _ _ hname hmethod _ ihmethod ihothers =>
    have hbehind := fun Γ' => (ihmethod Γ').append (ihothers Γ)
    cases hmethod
    exact (Covered.none front).append (.cons (Use.named_of hname) (hbehind _))
  | function _ hparams _ _ _ _ ih =>
    exact .skip _ ((covered_parameters hparams _).append (.skip _ (.skip _ ((ih _).ending _))))
  | variableOnly hname => exact .cons (Use.declaration_of hname Γ) (.none _)
  | variableValue hname _ _ _ ih =>
    exact .cons (Use.declaration_of hname Γ) (.skip _ ((ih _).ending _))
  | print _ _ _ ih => exact .skip _ ((ih Γ).ending _)
  | ifOnly _ _ _ _ _ ihtest ihyes =>
    exact .skip _ (.skip _ ((ihtest Γ).append (.skip _ (ihyes Γ))))
  | ifElse _ _ _ _ _ _ _ ihtest ihyes ihno =>
    exact .skip _ (.skip _ ((ihtest Γ).append (.skip _ ((ihyes Γ).append (.skip _ (ihno Γ))))))
  | block _ _ _ ih => exact .skip _ ((ih _).ending _)
  | whileLoop _ _ _ _ _ ihtest ihbody =>
    exact .skip _ (.skip _ ((ihtest Γ).append (.skip _ (ihbody Γ))))
  | @countedLoop _ _ _ _ semicolon closing _ _ _ _ start test step body _ _ _ _ _ _ _ hbody ihstart
      ihtest ihstep ihbody =>
    have hloop := covered_loop semicolon closing ihtest ihstep ihbody hbody.declaresNothing
    refine .skip _ (.skip _ ?_)
    cases start with
    | none => exact (ihstart Γ).append (hloop Γ)
    | some s =>
      let inside := .ofBlock [s, .countedLoop none test step body] :: Γ
      have hbehind := hloop (introduced inside (declared s))
      rw [← List.append_nil ((Stmt.countedLoop none test step body).uses _)] at hbehind
      exact (ihstart inside).append hbehind
  | exitLoop | nextIteration => exact .cons (Use.word_of rfl) (.none _)
  | @result _ _ keyword _ _ value? _ _ _ ih =>
    cases value? with
    | none => exact .cons (Use.word_of rfl) (.none _)
    | some e => exact .cons (Use.word_of rfl) ((ih Γ).ending _)
  | bareExpression _ ih => exact ih Γ
  | expressionStatement _ _ ih => exact (ih Γ).ending _
  | noStart => exact .none _
  | startVariable _ _ ih => exact .skip _ (ih Γ)
  | startExpression _ ih => exact ih Γ
  | someExpression _ ih => exact ih Γ
  | @step name step ending readId assignId hkind =>
    -- the name is assigned and read, and the operator stands on the line of the step
    have hname : Covered [name] [.occurrence Γ assignId name, .occurrence Γ readId name] := by
      refine .token (r := .occurrence Γ name.lexeme) fun u hu => ?_
      rcases List.mem_pair.mp hu with rfl | rfl
      · exact ⟨rfl, Use.occurrence_of hkind Γ assignId⟩
      · exact ⟨rfl, Use.occurrence_of hkind Γ readId⟩
    have hoperator : Covered (step :: ending) [.word (stepOperator step)] :=
      .cons (Use.word_of (line_stepOperator step)) (.none ending)
    exact hname.append hoperator
  | lambdaBlock _ hparams _ _ _ _ _ ih =>
    exact .skip _ ((covered_parameters hparams _).append
      (.skip _ (.skip _ (.skip _ ((ih _).ending _)))))
  | lambdaValue _ hparams _ _ _ ih =>
    refine .skip _ ((covered_parameters hparams _).append (.skip _ ?_))
    simpa [Symbol.uses] using Covered.cons (Use.word_of rfl) (ih _)
  | assignmentExpression _ ih => exact ih Γ
  | assignName hname _ _ ih => exact .cons (Use.occurrence_of hname Γ _) (.skip _ (ih Γ))
  | assignProperty _ _ _ _ _ ihobject ihvalue =>
    exact (ihobject Γ).append (.skip _ (.cons (Use.word_of rfl) (.skip _ (ihvalue Γ))))
  | assignEntry _ _ _ _ _ _ ihbase ihkey ihvalue =>
    exact (ihbase Γ).append
      (.cons (Use.word_of rfl) ((ihkey Γ).append (.skip _ (.skip _ (ihvalue Γ)))))
  | conditionalAssignment _ ih => exact ih Γ
  | choice _ _ _ _ _ ihtest ihyes ihno =>
    exact (ihtest Γ).append (.skip _ ((ihyes Γ).append (.skip _ (ihno Γ))))
  | noChoice _ ih => exact ih Γ
  | @join l operator _ _ _ _ _ _ _ ihleft ihright =>
    have hoperator : (Use.word operator).Of operator := Use.word_of rfl
    have hboth := (ihleft Γ).append (.cons hoperator (ihright Γ))
    cases l <;> exact hboth
  | firstOperand _ ih => exact ih Γ
  | tighterOperand _ _ ih => exact ih Γ
  | unaryOperand _ _ ih => exact ih Γ
  | unary _ _ ih => exact .cons (Use.word_of rfl) (ih Γ)
  | plain _ ih => exact ih Γ
  | call _ _ _ _ _ ihcallee iharguments =>
    exact (ihcallee Γ).append
      (.skip _ ((iharguments Γ).append (.cons (Use.word_of rfl) (.none []))))
  | property _ _ _ ih => exact (ih Γ).append (.skip _ (.cons (Use.word_of rfl) (.none [])))
  | entry _ _ _ _ ihbase ihkey =>
    exact (ihbase Γ).append (.cons (Use.word_of rfl) ((ihkey Γ).ending _))
  | noSuffix _ ih => exact ih Γ
  | constant => exact .none _
  | receiver hkind => exact .cons (Use.receiver_of hkind) (.none [])
  | name hname => exact .cons (Use.occurrence_of hname Γ _) (.none [])
  | group _ _ _ ih => exact .skip _ ((ih Γ).ending _)
  | array _ _ _ ih => exact .cons (Use.word_of rfl) ((ih Γ).ending _)
  | someExpressions _ ih => exact ih Γ
  | lastExpression _ ih => simpa [Symbol.uses] using ih Γ
  | moreExpressions _ _ _ ih ihothers => exact (ih Γ).append (.skip _ (ihothers Γ))

end Grammar

end Roteiro
