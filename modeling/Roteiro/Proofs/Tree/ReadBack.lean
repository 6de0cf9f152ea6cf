import Roteiro.Proofs.Decimal.Unsigned
import Roteiro.Proofs.Tree.Bare

/-!
# Trees read back from their phrases

What is printed for a tree can be read again. A word is a name, the receiver or a constant; its
kind, as it is scanned, tells which. In parentheses the first word is the head: an operator, by its
kind, or one of the heads that no operator is spelled like. The number of operands tells a sign from
a difference, and where a function has its parameters there stands the first phrase in parentheses.

The reader is only ever applied to what was printed, so it need not notice when it is given anything
else. Numbers are read back as the one that is written so: the text of a finite number without a
sign tells which it is.

* `Node.Legible`: what is right about the tokens and numbers of a node that comes from a source.
* `Node.Plain`: no text, no number that is not finite, no loop with a step.
* `Phrase.readsAs`: where this holds throughout, a tree is read back, but for what is not printed.
-/

namespace Roteiro

open Decimal (Unsigned)

/-- The kind of a text that is scanned as one token. -/
def Token.kindOf (lexeme : String) : Kind :=
  match lexeme.toList with
  | [] => .endOfInput
  | c :: cs =>
    match (chunk c cs).reading with
    | .token kind => kind
    | _ => .endOfInput

/-- The token with this lexeme, on no line. -/
def Token.ofLexeme (lexeme : String) : Token := ⟨kindOf lexeme, lexeme, 0⟩

/-- The number without a sign that is written like this. -/
noncomputable def Decimal.numberOf (text : String) : Float :=
  Function.invFunOn Decimal.display {x | Unsigned x ∧ x.isFinite = true} text

namespace Node

instance : Inhabited Node := ⟨.expr default⟩

/-- The expression, if the node is one. -/
def toExpr : Node → Expr
  | .expr e => e
  | .stmt _ => default

/-- The statement, if the node is one. -/
def toStmt : Node → Stmt
  | .expr _ => default
  | .stmt s => s

/-- The function, if the node declares one. -/
def toFunction : Node → FunctionDecl
  | .stmt (.function f) => f
  | _ => default

/-- The name, if the node is one that is read. -/
def toName : Node → Token
  | .expr (.var _ name) => name
  | _ => default

attribute [simp] toExpr toStmt toFunction toName

end Node

/-- Whether this is an operator that may leave its right side alone. -/
def Kind.isConnective (k : Kind) : Bool := k = .andKw || k = .orKw

/-- Whether this is an operator. -/
def Kind.isOperator (k : Kind) : Bool :=
  k.isConnective || k ∈ [.bang, .minus, .plus, .star, .slash, .percent, .bangEqual, .equalEqual,
    .greater, .greaterEqual, .less, .lessEqual]

theorem Kind.isOperator_of_isConnective {k : Kind} (h : k.isConnective = true) :
    k.isOperator = true := by
  rw [isOperator, h, Bool.true_or]

namespace Phrase

/-- A word stands for a name or for a constant. -/
noncomputable def readWord (text : String) : Node :=
  match Token.kindOf text with
  | .identifier => .expr (.var 0 (.ofLexeme text))
  | .selfKw => .expr (.self 0 (.ofLexeme text))
  | .number _ => .expr (.literal (.number (Decimal.numberOf text)))
  | .trueKw => .expr (.literal (.boolean true))
  | .falseKw => .expr (.literal (.boolean false))
  | _ => .expr (.literal .nil)

/-- An operator stands in front of its operands. -/
def readOperator (operator : Token) : List Node → Node
  | [operand] => .expr (.unary operator operand.toExpr)
  | [left, right] =>
    if operator.kind.isConnective then .expr (.logical left.toExpr operator right.toExpr)
    else .expr (.binary left.toExpr operator right.toExpr)
  | _ => default

/-- Any other head stands in front of the parts of its node. -/
def readHead (head : String) (params : List Token) (parts : List Node) : Node :=
  match head, parts with
  | "group", [inner] => .expr (.group inner.toExpr)
  | "?:", [test, yes, no] => .expr (.conditional test.toExpr yes.toExpr no.toExpr)
  | "=", [name, value] => .expr (.assign 0 name.toName value.toExpr)
  | "call", callee :: arguments =>
    .expr (.call callee.toExpr default (arguments.map Node.toExpr))
  | "lambda", _ :: body => .expr (.lambda ⟨none, params, body.map Node.toStmt⟩)
  | "array", elements => .expr (.array default (elements.map Node.toExpr))
  | "index", [base, key] => .expr (.index default base.toExpr key.toExpr)
  | "index=", [base, key, value] =>
    .expr (.indexSet default base.toExpr key.toExpr value.toExpr)
  | ".", [object, name] => .expr (.get object.toExpr name.toName)
  | ".=", [object, name, value] => .expr (.set object.toExpr name.toName value.toExpr)
  | ";", [value] => .stmt (.expression value.toExpr)
  | "escreva", [value] => .stmt (.print value.toExpr)
  | "var", [name] => .stmt (.var name.toName none)
  | "var", [name, value] => .stmt (.var name.toName (some value.toExpr))
  | "block", body => .stmt (.block (body.map Node.toStmt))
  | "se", [test, yes] => .stmt (.ifElse test.toExpr yes.toStmt none)
  | "se", [test, yes, no] => .stmt (.ifElse test.toExpr yes.toStmt (some no.toStmt))
  | "enquanto", [test, body] => .stmt (.loop test.toExpr body.toStmt none)
  | "pare", _ => .stmt (.exitLoop default)
  | "continue", _ => .stmt (.nextIteration default)
  | "retorne", [] => .stmt (.result default none)
  | "retorne", [value] => .stmt (.result default (some value.toExpr))
  | "classe", name :: methods =>
    .stmt (.classDecl name.toName (methods.map Node.toFunction))
  | "funcao", name :: _ :: body =>
    .stmt (.function ⟨some name.toName, params, body.map Node.toStmt⟩)
  | "metodo", name :: _ :: body =>
    .stmt (.function ⟨some name.toName, params, body.map Node.toStmt⟩)
  | _, _ => default

/-- The names in the first parentheses. -/
def params : List Phrase → List Token
  | [] => []
  | word _ :: ps => params ps
  | list names :: _ => names.map fun
    | word text => .ofLexeme text
    | list _ => default

/-- A head with its parts, which have been read. -/
def readList (parts : List Phrase) (nodes : List Node) : Node :=
  match parts, nodes with
  | word head :: parts, _ :: nodes =>
    if (Token.kindOf head).isOperator then readOperator (.ofLexeme head) nodes
    else readHead head (params parts) nodes
  | _, _ => default

mutual

/-- A tree for which the phrase is printed. -/
noncomputable def read : Phrase → Node
  | word text => readWord text
  | list parts => readList parts (readAll parts)

/-- Trees for which the phrases are printed. -/
noncomputable def readAll : List Phrase → List Node
  | [] => []
  | p :: ps => p.read :: readAll ps

end

theorem readAll_eq (ps : List Phrase) : readAll ps = ps.map read := by
  induction ps with
  | nil => rfl
  | cons p ps ih => rw [readAll, ih, List.map_cons]

end Phrase

/-! ### Trees that can be read back -/

/-- A token that a lexeme tells, but for its line. -/
structure Token.Spelled (t : Token) : Prop where
  kindOf_lexeme : Token.kindOf t.lexeme = t.kind
  isWord : Phrase.IsWord t.lexeme

theorem Token.Spelled.bare_eq {t : Token} (h : t.Spelled) : Token.ofLexeme t.lexeme = t.bare := by
  rw [Token.ofLexeme, h.kindOf_lexeme]
  rfl

/-- A token that is a name. -/
structure Token.Names (t : Token) : Prop extends t.Spelled where
  kind : t.kind = .identifier

/-- A function with a name of its own. -/
structure FunctionDecl.Named (f : FunctionDecl) : Prop where
  name : ∃ name, f.name? = some name ∧ name.Names
  params : ∀ p ∈ f.params, p.Names

namespace Node

/-- What is right about the tokens and numbers of a node, as they come from a source. -/
def Legible : Node → Prop
  | .expr (.literal (.number x)) => Unsigned x
  | .expr (.unary operator _) => operator.Spelled ∧ operator.kind.isOperator = true
  | .expr (.binary _ operator _) =>
    operator.Spelled ∧ operator.kind.isOperator = true ∧ operator.kind.isConnective = false
  | .expr (.logical _ operator _) => operator.Spelled ∧ operator.kind.isConnective = true
  | .expr (.var _ name) => name.Names
  | .expr (.assign _ name _) => name.Names
  | .expr (.lambda f) => f.name? = none ∧ ∀ p ∈ f.params, p.Names
  | .expr (.get _ name) => name.Names
  | .expr (.set _ name _) => name.Names
  | .expr (.self _ keyword) => keyword.Spelled ∧ keyword.kind = .selfKw
  | .stmt (.var name _) => name.Names
  | .stmt (.function f) => f.Named
  | .stmt (.classDecl name methods) => name.Names ∧ ∀ f ∈ methods, f.Named
  | _ => True

/-- No text, no number that is not finite, and no loop with a step. -/
def Plain : Node → Prop
  | .expr (.literal (.number x)) => x.isFinite = true
  | .expr (.literal (.string _)) => False
  | .stmt (.loop _ _ step?) => step? = none
  | _ => True

end Node

namespace Phrase

open Node

/-- `p.ReadsAs node`: the phrase has proper words and is read as the node. -/
structure ReadsAs (p : Phrase) (node : Node) : Prop where
  proper : p.Proper
  read : p.read = node

variable {ps : List Phrase} {nodes : List Node}

theorem read_of_forall₂ (h : List.Forall₂ ReadsAs ps nodes) :
    (∀ p ∈ ps, p.Proper) ∧ ps.map read = nodes := by
  induction h with
  | nil => exact ⟨List.forall_mem_nil _, rfl⟩
  | cons hp _ ih =>
    exact ⟨List.forall_mem_cons.mpr ⟨hp.proper, ih.1⟩, by rw [List.map_cons, hp.read, ih.2]⟩

/-- The heads that are no operators. -/
def heads : List String :=
  ["group", "?:", "=", "call", "lambda", "array", "index", "index=", ".", ".=", ";", "escreva",
   "var", "block", "se", "enquanto", "pare", "continue", "retorne", "classe", "funcao", "metodo"]

/-- No operator is spelled like one of the other heads. -/
theorem isOperator_head : ∀ head ∈ heads, IsWord head ∧ (Token.kindOf head).isOperator = false := by
  decide +kernel

/-- A head that is no operator is read back with its parts. -/
theorem readsAs_head (head : String) (hhead : head ∈ heads) (h : List.Forall₂ ReadsAs ps nodes) :
    (list (word head :: ps)).ReadsAs (readHead head (params ps) nodes) := by
  obtain ⟨hword, hkind⟩ := isOperator_head head hhead
  obtain ⟨hproper, rfl⟩ := read_of_forall₂ h
  refine ⟨.list (List.forall_mem_cons.mpr ⟨.word hword, hproper⟩), ?_⟩
  rw [read, readAll, readList, hkind, readAll_eq]
  rfl

/-- An operator is read back with its operands. -/
theorem readsAs_operator {t : Token} (ht : t.Spelled) (hkind : t.kind.isOperator = true)
    (h : List.Forall₂ ReadsAs ps nodes) :
    (list (word t.lexeme :: ps)).ReadsAs (readOperator t.bare nodes) := by
  obtain ⟨hproper, rfl⟩ := read_of_forall₂ h
  refine ⟨.list (List.forall_mem_cons.mpr ⟨.word ht.isWord, hproper⟩), ?_⟩
  rw [read, readAll, readList, ht.kindOf_lexeme, hkind, readAll_eq, ht.bare_eq]
  rfl

theorem readsAs_name {t : Token} (h : t.Names) :
    (word t.lexeme).ReadsAs (.expr (.var 0 t.bare)) :=
  ⟨.word h.isWord, by simp only [read, readWord, h.kindOf_lexeme, h.kind, h.bare_eq]⟩

theorem readsAs_keyword {t : Token} (ht : t.Spelled) (h : t.kind = .selfKw) :
    (word t.lexeme).ReadsAs (.expr (.self 0 t.bare)) :=
  ⟨.word ht.isWord, by simp only [read, readWord, ht.kindOf_lexeme, h, ht.bare_eq]⟩

/-! ### Constants -/

/-- A numeral is scanned as a number. -/
theorem exists_kindOf_numeral {text : String} (h : Decimal.IsNumeral text.toList) :
    ∃ value, Token.kindOf text = .number value := by
  obtain ⟨c, cs, htext, hc⟩ := h.exists_cons
  exact ⟨_, by rw [Token.kindOf, htext]; simp only [Token.chunk_of_isDigit hc]; rfl⟩

theorem isWord_numeral {text : String} (h : Decimal.IsNumeral text.toList) : IsWord text := by
  constructor
  · rintro rfl
    obtain ⟨c, cs, htext, -⟩ := h.exists_cons
    cases htext
  · intro c hc
    rcases h.mem c hc with hdigit | rfl
    · exact inWord_of (by decide) hdigit
    · decide

/-- **A constant is read back**, if it is no text and no number that is not finite. -/
theorem readsAs_literal {value : Literal} (h : (Node.expr (.literal value)).Legible)
    (hplain : (Node.expr (.literal value)).Plain) :
    (word value.text).ReadsAs (.expr (.literal value)) := by
  match value, h, hplain with
  | .number x, h, hplain =>
    have hnumeral := h.isNumeral_display hplain
    obtain ⟨n, hn⟩ := exists_kindOf_numeral hnumeral
    have hx : Decimal.numberOf (Decimal.display x) = x :=
      Decimal.display_injOn.leftInvOn_invFunOn ⟨h, hplain⟩
    exact ⟨.word (isWord_numeral hnumeral), by simp only [Literal.text, read, readWord, hn, hx]⟩
  | .boolean true, _, _ =>
    have hkind : Token.kindOf "verdadeiro" = .trueKw := by decide +kernel
    exact ⟨.word (by decide), by simp only [Literal.text, read, readWord, hkind]⟩
  | .boolean false, _, _ =>
    have hkind : Token.kindOf "falso" = .falseKw := by decide +kernel
    exact ⟨.word (by decide), by simp only [Literal.text, read, readWord, hkind]⟩
  | .nil, _, _ =>
    have hkind : Token.kindOf "nulo" = .nullKw := by decide +kernel
    exact ⟨.word (by decide), by simp only [Literal.text, read, readWord, hkind]⟩

/-! ### Lists of parts -/

/-- An expression is read back from its phrase. -/
abbrev ExprReadBack (e : Expr) : Prop := e.phrase.ReadsAs (.expr e.bare)

/-- A statement is read back from its phrase. -/
abbrev StmtReadBack (s : Stmt) : Prop := s.phrase.ReadsAs (.stmt s.bare)

theorem forall₂_exprs {es : List Expr} (h : ∀ e ∈ es, ExprReadBack e) :
    List.Forall₂ ReadsAs (Expr.phrases es) ((bareExprs es).map .expr) := by
  rw [Expr.phrases_eq, bareExprs_eq, List.map_map, List.forall₂_map_left_iff,
    List.forall₂_map_right_iff, List.forall₂_same]
  exact h

theorem forall₂_stmts {ss : List Stmt} (h : ∀ s ∈ ss, StmtReadBack s) :
    List.Forall₂ ReadsAs (Stmt.phrases ss) ((bareStmts ss).map .stmt) := by
  rw [Stmt.phrases_eq, bareStmts_eq, List.map_map, List.forall₂_map_left_iff,
    List.forall₂_map_right_iff, List.forall₂_same]
  exact h

theorem forall₂_functions {kind : String} {fs : List FunctionDecl}
    (h : ∀ f ∈ fs, (f.phrase kind).ReadsAs (.stmt (.function f.bare))) :
    List.Forall₂ ReadsAs (FunctionDecl.phrases kind fs)
      ((bareFunctions fs).map fun f => .stmt (.function f)) := by
  rw [FunctionDecl.phrases_eq, bareFunctions_eq, List.map_map, List.forall₂_map_left_iff,
    List.forall₂_map_right_iff, List.forall₂_same]
  exact h

section

variable (names : List Token) (node node' : Node)

theorem map_toExpr (es : List Expr) : (es.map Node.expr).map toExpr = es := by
  rw [List.map_map]
  exact List.map_id es

theorem map_toStmt (ss : List Stmt) : (ss.map Node.stmt).map toStmt = ss := by
  rw [List.map_map]
  exact List.map_id ss

theorem map_toFunction (fs : List FunctionDecl) :
    (fs.map fun f => Node.stmt (.function f)).map toFunction = fs := by
  rw [List.map_map]
  exact List.map_id fs

theorem readHead_call (es : List Expr) :
    readHead "call" names (node :: es.map .expr) = .expr (.call node.toExpr default es) :=
  congrArg (fun es => Node.expr (.call node.toExpr default es)) (map_toExpr es)

theorem readHead_array (es : List Expr) :
    readHead "array" names (es.map .expr) = .expr (.array default es) :=
  congrArg (fun es => Node.expr (.array default es)) (map_toExpr es)

theorem readHead_lambda (ss : List Stmt) :
    readHead "lambda" names (node :: ss.map .stmt) = .expr (.lambda ⟨none, names, ss⟩) :=
  congrArg (fun ss => Node.expr (.lambda ⟨none, names, ss⟩)) (map_toStmt ss)

theorem readHead_block (ss : List Stmt) :
    readHead "block" names (ss.map .stmt) = .stmt (.block ss) :=
  congrArg (fun ss => Node.stmt (.block ss)) (map_toStmt ss)

theorem readHead_class (fs : List FunctionDecl) :
    readHead "classe" names (node :: fs.map fun f => .stmt (.function f)) =
      .stmt (.classDecl node.toName fs) :=
  congrArg (fun fs => Node.stmt (.classDecl node.toName fs)) (map_toFunction fs)

theorem readHead_function {kind : String} (hkind : kind ∈ ["funcao", "metodo"]) (ss : List Stmt) :
    readHead kind names (node :: node' :: ss.map .stmt) =
      .stmt (.function ⟨some node.toName, names, ss⟩) := by
  have hbody := congrArg (fun ss => Node.stmt (.function ⟨some node.toName, names, ss⟩))
    (map_toStmt ss)
  rcases List.mem_pair.mp hkind with rfl | rfl <;> exact hbody

end

/-- The parameters of a function are read back. -/
theorem readsAs_params {ts : List Token} (h : ∀ t ∈ ts, t.Names) (ps : List Phrase) :
    (∃ node, (FunctionDecl.paramsPhrase ts).ReadsAs node) ∧
      params (FunctionDecl.paramsPhrase ts :: ps) = ts.map Token.bare := by
  constructor
  · refine ⟨_, .list fun p hp => ?_, rfl⟩
    obtain ⟨t, ht, rfl⟩ := List.mem_map.mp hp
    exact .word (h t ht).isWord
  · simp only [FunctionDecl.paramsPhrase, params, List.map_map]
    exact List.map_congr_left fun t ht => (h t ht).bare_eq

/-- A function with a name is read back behind any head for functions, if its body is. -/
theorem readsAs_function {kind : String} (hkind : kind ∈ ["funcao", "metodo"]) {f : FunctionDecl}
    (hf : f.Named) (hbody : ∀ s ∈ f.body, StmtReadBack s) :
    (f.phrase kind).ReadsAs (.stmt (.function f.bare)) := by
  obtain ⟨_, names, body⟩ := f
  obtain ⟨⟨name, rfl, hname⟩, hnames⟩ := hf
  obtain ⟨⟨node, hnode⟩, hread⟩ := readsAs_params hnames (Stmt.phrases body)
  have hhead : kind ∈ heads := by
    rcases List.mem_pair.mp hkind with rfl | rfl <;> simp [heads]
  have hfunction := readsAs_head kind hhead
    (.cons (readsAs_name hname) (.cons hnode (forall₂_stmts hbody)))
  rwa [readHead_function _ _ _ hkind, params, hread] at hfunction

/-- A lambda is read back, if its body is. -/
theorem readsAs_lambda {f : FunctionDecl} (hf : (Node.expr (.lambda f)).Legible)
    (hbody : ∀ s ∈ f.body, StmtReadBack s) :
    (f.phrase "lambda").ReadsAs (.expr (.lambda f.bare)) := by
  obtain ⟨_, names, body⟩ := f
  obtain ⟨rfl, hnames⟩ := hf
  obtain ⟨⟨node, hnode⟩, hread⟩ := readsAs_params hnames (Stmt.phrases body)
  have hlambda := readsAs_head "lambda" (by simp [heads])
    (.cons hnode (forall₂_stmts hbody))
  rwa [readHead_lambda, hread] at hlambda

/-- **A tree is read back from its phrase**, but for what is not printed. -/
theorem readsAs {node : Node} (h : node.Throughout Legible) (hplain : node.Throughout Plain) :
    node.phrase.ReadsAs node.bare := by
  induction node using Node.induction with
  | h node ih =>
  obtain ⟨hnode, hparts⟩ := throughout_iff.mp h
  obtain ⟨hnode', hparts'⟩ := throughout_iff.mp hplain
  replace ih := fun p hp => ih p hp (hparts p hp) (hparts' p hp)
  clear h hplain hparts hparts'
  match node with
  -- words
  | .expr (.literal value) => exact readsAs_literal hnode hnode'
  | .expr (.var id name) => exact readsAs_name hnode
  | .expr (.self id keyword) => exact readsAs_keyword hnode.1 hnode.2
  -- operators
  | .expr (.unary operator operand) =>
    have hoperand : ExprReadBack operand := by simpa using ih
    exact readsAs_operator hnode.1 hnode.2 (.cons hoperand .nil)
  | .expr (.binary left operator right) =>
    obtain ⟨hspelled, hkind, hbinary⟩ := hnode
    obtain ⟨hleft, hright⟩ : ExprReadBack left ∧ ExprReadBack right := by simpa using ih
    have hread := readsAs_operator hspelled hkind (.cons hleft (.cons hright .nil))
    rwa [readOperator, Token.kind_bare, if_neg (ne_true_of_eq_false hbinary)] at hread
  | .expr (.logical left operator right) =>
    obtain ⟨hspelled, hlogical⟩ := hnode
    obtain ⟨hleft, hright⟩ : ExprReadBack left ∧ ExprReadBack right := by simpa using ih
    have hread := readsAs_operator hspelled (Kind.isOperator_of_isConnective hlogical)
      (.cons hleft (.cons hright .nil))
    rwa [readOperator, Token.kind_bare, if_pos hlogical] at hread
  -- other expressions
  | .expr (.group inner) =>
    have hinner : ExprReadBack inner := by simpa using ih
    exact readsAs_head "group" (by simp [heads]) (.cons hinner .nil)
  | .expr (.conditional test yes no) =>
    obtain ⟨htest, hyes, hno⟩ : ExprReadBack test ∧ ExprReadBack yes ∧ ExprReadBack no := by
      simpa using ih
    exact readsAs_head "?:" (by simp [heads]) (.cons htest (.cons hyes (.cons hno .nil)))
  | .expr (.assign id name value) =>
    have hvalue : ExprReadBack value := by simpa using ih
    exact readsAs_head "=" (by simp [heads]) (.cons (readsAs_name hnode) (.cons hvalue .nil))
  | .expr (.call callee paren arguments) =>
    obtain ⟨hcallee, harguments⟩ : ExprReadBack callee ∧ ∀ e ∈ arguments, ExprReadBack e := by
      simpa using ih
    have hread := readsAs_head "call" (by simp [heads])
      (.cons hcallee (forall₂_exprs harguments))
    rwa [readHead_call] at hread
  | .expr (.lambda f) =>
    have hbody : ∀ s ∈ f.body, StmtReadBack s := by simpa using ih
    exact readsAs_lambda hnode hbody
  | .expr (.array bracket elements) =>
    have helements : ∀ e ∈ elements, ExprReadBack e := by simpa using ih
    have hread := readsAs_head "array" (by simp [heads]) (forall₂_exprs helements)
    rwa [readHead_array] at hread
  | .expr (.index bracket base key) =>
    obtain ⟨hbase, hkey⟩ : ExprReadBack base ∧ ExprReadBack key := by simpa using ih
    exact readsAs_head "index" (by simp [heads]) (.cons hbase (.cons hkey .nil))
  | .expr (.indexSet bracket base key value) =>
    obtain ⟨hbase, hkey, hvalue⟩ : ExprReadBack base ∧ ExprReadBack key ∧ ExprReadBack value := by
      simpa using ih
    exact readsAs_head "index=" (by simp [heads])
      (.cons hbase (.cons hkey (.cons hvalue .nil)))
  | .expr (.get object name) =>
    have hobject : ExprReadBack object := by simpa using ih
    exact readsAs_head "." (by simp [heads]) (.cons hobject (.cons (readsAs_name hnode) .nil))
  | .expr (.set object name value) =>
    obtain ⟨hobject, hvalue⟩ : ExprReadBack object ∧ ExprReadBack value := by simpa using ih
    exact readsAs_head ".=" (by simp [heads])
      (.cons hobject (.cons (readsAs_name hnode) (.cons hvalue .nil)))
  -- statements
  | .stmt (.expression e) =>
    have he : ExprReadBack e := by simpa using ih
    exact readsAs_head ";" (by simp [heads]) (.cons he .nil)
  | .stmt (.print e) =>
    have he : ExprReadBack e := by simpa using ih
    exact readsAs_head "escreva" (by simp [heads]) (.cons he .nil)
  | .stmt (.var name none) =>
    exact readsAs_head "var" (by simp [heads]) (.cons (readsAs_name hnode) .nil)
  | .stmt (.var name (some value)) =>
    have hvalue : ExprReadBack value := by simpa using ih
    exact readsAs_head "var" (by simp [heads])
      (.cons (readsAs_name hnode) (.cons hvalue .nil))
  | .stmt (.block body) =>
    have hbody : ∀ s ∈ body, StmtReadBack s := by simpa using ih
    have hread := readsAs_head "block" (by simp [heads]) (forall₂_stmts hbody)
    rwa [readHead_block] at hread
  | .stmt (.ifElse test yes none) =>
    obtain ⟨htest, hyes⟩ : ExprReadBack test ∧ StmtReadBack yes := by simpa using ih
    exact readsAs_head "se" (by simp [heads]) (.cons htest (.cons hyes .nil))
  | .stmt (.ifElse test yes (some no)) =>
    obtain ⟨htest, hyes, hno⟩ : ExprReadBack test ∧ StmtReadBack yes ∧ StmtReadBack no := by
      simpa using ih
    exact readsAs_head "se" (by simp [heads]) (.cons htest (.cons hyes (.cons hno .nil)))
  | .stmt (.loop test body none) =>
    obtain ⟨htest, hbody⟩ : ExprReadBack test ∧ StmtReadBack body := by simpa using ih
    exact readsAs_head "enquanto" (by simp [heads]) (.cons htest (.cons hbody .nil))
  -- a step is not printed
  | .stmt (.loop test body (some step)) => cases hnode'
  | .stmt (.exitLoop keyword) => exact readsAs_head "pare" (by simp [heads]) .nil
  | .stmt (.nextIteration keyword) => exact readsAs_head "continue" (by simp [heads]) .nil
  | .stmt (.function f) =>
    have hbody : ∀ s ∈ f.body, StmtReadBack s := by simpa using ih
    exact readsAs_function (by decide) hnode hbody
  | .stmt (.result keyword none) => exact readsAs_head "retorne" (by simp [heads]) .nil
  | .stmt (.result keyword (some value)) =>
    have hvalue : ExprReadBack value := by simpa using ih
    exact readsAs_head "retorne" (by simp [heads]) (.cons hvalue .nil)
  | .stmt (.classDecl name methods) =>
    have hmethods : ∀ f ∈ methods, (f.phrase "metodo").ReadsAs (.stmt (.function f.bare)) :=
      fun f hf => readsAs_function (by decide) (hnode.2 f hf) fun s hs =>
        ih _ (List.mem_flatMap.mpr ⟨f, hf, List.mem_map_of_mem hs⟩)
    have hread := readsAs_head "classe" (by simp [heads])
      (.cons (readsAs_name hnode.1) (forall₂_functions hmethods))
    rwa [readHead_class] at hread

end Phrase

end Roteiro
