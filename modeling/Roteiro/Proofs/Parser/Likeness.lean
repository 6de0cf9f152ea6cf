import Roteiro.Parser.Program
import Roteiro.Proofs.Tree.Likeness

/-!
# Reading tokens that correspond

The parser looks at nothing but the kinds of tokens, and it gives out numbers one after another,
from wherever it starts. So tokens of the same kinds are read in the same way, whatever their
spellings and their lines: the trees have one shape, with tokens in them that correspond, and so
have the complaints and the faults at which a rule stops.

`Parallel A rule rule'` says so of two rules: from states in which the tokens correspond they end in
the same way, with results that correspond by `A` and in states of that sort again.

* `runRule_like`: a rule that is parallel to itself reads tokens that correspond in the same way.
* `parseProgram_like`: tokens that correspond are read as programs of one shape.
-/

namespace Roteiro

/-- A keyword, whatever its spelling. -/
def Kind.IsKeyword (kind : Kind) : Prop := kind ∈ Kind.keywords.map Prod.snd

instance (kind : Kind) : Decidable kind.IsKeyword :=
  inferInstanceAs (Decidable (kind ∈ Kind.keywords.map Prod.snd))

/-- Which tokens and which numbers correspond. Tokens that do are of one kind; and on their lines
the parser may make tokens of its own. -/
structure Correspondence where
  token : Token → Token → Prop
  id : Nat → Nat → Prop
  kind : ∀ {t t'}, token t t' → t'.kind = t.kind
  made : ∀ {t t'}, token t t' → ∀ {kind : Kind}, kind ≠ .identifier → ¬kind.IsKeyword → ∀ lexeme,
    token ⟨kind, lexeme, t.line⟩ ⟨kind, lexeme, t'.line⟩

namespace Correspondence

variable (C : Correspondence)

/-- The likeness of trees in which tokens and numbers correspond, whatever the marks. The place of a
token in the tree tells something about its kind. -/
def likeness : Likeness where
  token t t' := C.token t t' ∧ ¬t.kind.IsKeyword
  keyword := C.token
  occurrence _ i n i' n' := C.id i i' ∧ C.token n n' ∧ (n.kind = .identifier ∨ n.kind = .selfKw)
  binder _ n n' := C.token n n' ∧ n.kind = .identifier
  named _ n n' := C.token n n' ∧ n.kind = .identifier
  unnamed _ := False

def expr (e e' : Expr) : Prop := ∀ bs, e.Like C.likeness bs e'

def exprs (es es' : List Expr) : Prop := ∀ bs, ExprsLike C.likeness bs es es'

def stmt (s s' : Stmt) : Prop := ∀ bs, s.Like C.likeness bs s'

def stmts (ss ss' : List Stmt) : Prop := ∀ bs, StmtsLike C.likeness bs ss ss'

/-- Functions with a name. -/
def function (f f' : FunctionDecl) : Prop :=
  f.name? ≠ none ∧ ∀ b bs, f.Like C.likeness b bs f'

def functions (fs fs' : List FunctionDecl) : Prop := ∀ bs, FunctionsLike C.likeness bs fs fs'

/-- Tokens of a given kind. -/
def ofKind (kind : Kind) (t t' : Token) : Prop := C.token t t' ∧ t.kind = kind

variable {C}

theorem ofKind.plain {kind : Kind} {t t' : Token} (h : C.ofKind kind t t')
    (hkind : ¬kind.IsKeyword) : C.likeness.token t t' :=
  ⟨h.1, h.2 ▸ hkind⟩

end Correspondence

namespace Parser

variable {C : Correspondence} {k : Nat}

/-- States in front of tokens that correspond. The second one has given out `k` numbers more. -/
structure State.Like (C : Correspondence) (k : Nat) (s s' : State) : Prop where
  rest : List.Forall₂ C.token s.rest s'.rest
  ending : C.token s.ending s'.ending
  last : Option.Rel C.token s.last s'.last
  loops : s'.loops = s.loops
  nextId : s'.nextId = s.nextId + k
  ids : ∀ i, s.nextId ≤ i → C.id i (i + k)
  reports : List.Forall₂ (Report.Like C.token) s.reports.toList s'.reports.toList

/-- Two rules have ended in the same way. -/
inductive Ended (C : Correspondence) (k : Nat) {α β : Type} (A : α → β → Prop) :
    EStateM.Result Stop State α → EStateM.Result Stop State β → Prop
  | ok {a a' s s'} (ha : A a a') (hs : s.Like C k s') : Ended C k A (.ok a s) (.ok a' s')
  | fault {r r' s s'} (hr : r.Like C.token r') (hs : s.Like C k s') :
    Ended C k A (.error (.fault r) s) (.error (.fault r') s')
  | outOfFuel {s s'} (hs : s.Like C k s') :
    Ended C k A (.error .outOfFuel s) (.error .outOfFuel s')

/-- From states in front of tokens that correspond, two rules end in the same way. -/
def Parallel (C : Correspondence) (k : Nat) {α β : Type} (A : α → β → Prop) (rule : Rule α)
    (rule' : Rule β) : Prop :=
  ∀ s s', s.Like C k s' → Ended C k A (rule s) (rule' s')

namespace State.Like

variable {s s' : State} (h : s.Like C k s')

include h

theorem next : C.token s.next s'.next := by
  unfold State.next
  have hrest := h.rest
  generalize s.rest = ts at hrest ⊢
  generalize s'.rest = ts' at hrest ⊢
  cases hrest with
  | nil => exact h.ending
  | cons ht _ => exact ht

theorem startsWith (kind : Kind) : s'.startsWith kind = s.startsWith kind := by
  unfold State.startsWith
  have hrest := h.rest
  generalize s.rest = ts at hrest ⊢
  generalize s'.rest = ts' at hrest ⊢
  cases hrest with
  | nil => rfl
  | cons ht _ => simp [C.kind ht]

theorem atEnd : s'.atEnd = s.atEnd := by
  unfold State.atEnd
  have hrest := h.rest
  generalize s.rest = ts at hrest ⊢
  generalize s'.rest = ts' at hrest ⊢
  cases hrest <;> rfl

theorem advance : s.advance.Like C k s'.advance := by
  unfold State.advance
  cases hrest : s.rest with
  | nil =>
    have hrest' : s'.rest = [] := by simpa [hrest] using h.rest
    rw [hrest']
    exact h
  | cons t rest =>
    obtain ⟨t', rest', ht, hts, hrest'⟩ := List.forall₂_cons_left_iff.mp (hrest ▸ h.rest)
    rw [hrest']
    exact ⟨hts, h.ending, .some ht, h.loops, h.nextId, h.ids, h.reports⟩

theorem report {r r' : Report} (hr : r.Like C.token r') : (s.report r).Like C k (s'.report r') := by
  refine ⟨h.rest, h.ending, h.last, h.loops, h.nextId, h.ids, ?_⟩
  simp only [State.report, Array.toList_push]
  exact List.rel_append h.reports (.cons hr .nil)

theorem startsLambda : s'.startsLambda = s.startsLambda := by
  have harrow : ∀ {ts ts' : List Token}, List.Forall₂ C.token ts ts' →
      arrowAhead ts' = arrowAhead ts := by
    intro ts ts' hts
    induction hts with
    | nil => rfl
    | cons ht hrest ih =>
      simp only [arrowAhead, C.kind ht, ih]
      cases hrest with
      | nil => rfl
      | cons ht' _ => simp [C.kind ht']
  unfold State.startsLambda
  have hrest := h.rest
  generalize s.rest = ts at hrest ⊢
  generalize s'.rest = ts' at hrest ⊢
  cases hrest with
  | nil => rfl
  | cons ht hts => simp [C.kind ht, harrow hts]

theorem startsStep : s'.startsStep = s.startsStep := by
  unfold State.startsStep
  have hrest := h.rest
  generalize s.rest = ts at hrest ⊢
  generalize s'.rest = ts' at hrest ⊢
  cases hrest with
  | nil => rfl
  | cons ht hts =>
    cases hts with
    | nil => rfl
    | cons ht' _ => simp [C.kind ht, C.kind ht']

theorem synchronize : s.synchronize.Like C k s'.synchronize := by
  have hresume : ∀ {ts ts' : List Token} {last last' : Token},
      List.Forall₂ C.token ts ts' → C.token last last' →
      C.token (resume last ts).1 (resume last' ts').1 ∧
        List.Forall₂ C.token (resume last ts).2 (resume last' ts').2 := by
    intro ts ts' last last' hts
    induction hts generalizing last last' with
    | nil => exact fun hlast => ⟨hlast, .nil⟩
    | cons ht hrest ih =>
      intro hlast
      simp only [resume, C.kind hlast, C.kind ht]
      split
      · exact ⟨hlast, .cons ht hrest⟩
      · exact ih ht
  unfold State.synchronize
  cases hrest : s.rest with
  | nil =>
    have hrest' : s'.rest = [] := by simpa [hrest] using h.rest
    rw [hrest']
    exact h
  | cons t rest =>
    obtain ⟨t', rest', ht, hts, hrest'⟩ := List.forall₂_cons_left_iff.mp (hrest ▸ h.rest)
    rw [hrest']
    obtain ⟨hlast, hts⟩ := hresume hts ht
    exact ⟨hts, h.ending, .some hlast, h.loops, h.nextId, h.ids, h.reports⟩

end State.Like

theorem kind_next_of_startsWith {s : State} {kind : Kind} (h : s.startsWith kind = true) :
    s.next.kind = kind := by
  unfold State.startsWith at h
  unfold State.next
  cases hrest : s.rest with
  | nil => simp [hrest] at h
  | cons t rest => simpa [hrest] using h

/-- A counting step starts with a name. -/
theorem kind_next_of_startsStep {s : State} (h : s.startsStep = true) :
    s.next.kind = .identifier := by
  unfold State.startsStep at h
  split at h
  · next name step rest hrest =>
    simp only [State.next, hrest, List.head?_cons, Option.getD_some]
    exact of_decide_eq_true (Bool.and_eq_true_iff.mp h).1
  · cases h

/-! ### Rules in sequence -/

section Parallel

variable {α α' β β' : Type} {A : α → α' → Prop} {B : β → β' → Prop}

theorem Parallel.pure {a : α} {a' : α'} (h : A a a') : Parallel C k A (pure a) (pure a') :=
  fun _ _ hs => .ok h hs

theorem parallel_outOfFuel : Parallel C k A (throw .outOfFuel) (throw .outOfFuel) :=
  fun _ _ hs => .outOfFuel hs

theorem Parallel.bind {rule : Rule α} {rule' : Rule α'} {next : α → Rule β} {next' : α' → Rule β'}
    (h : Parallel C k A rule rule')
    (hnext : ∀ a a', A a a' → Parallel C k B (next a) (next' a')) :
    Parallel C k B (rule >>= next) (rule' >>= next') := by
  intro s s' hs
  have hended := h s s' hs
  simp only [Bind.bind, EStateM.bind]
  generalize rule s = result at hended ⊢
  generalize rule' s' = result' at hended ⊢
  cases hended with
  | ok ha hs => exact hnext _ _ ha _ _ hs
  | fault hr hs => exact .fault hr hs
  | outOfFuel hs => exact .outOfFuel hs

theorem Parallel.map {rule : Rule α} {rule' : Rule α'} {f : α → β} {f' : α' → β'}
    (h : Parallel C k A rule rule') (hf : ∀ a a', A a a' → B (f a) (f' a')) :
    Parallel C k B (f <$> rule) (f' <$> rule') := by
  intro s s' hs
  have hended := h s s' hs
  simp only [Functor.map, EStateM.map]
  generalize rule s = result at hended ⊢
  generalize rule' s' = result' at hended ⊢
  cases hended with
  | ok ha hs => exact .ok (hf _ _ ha) hs
  | fault hr hs => exact .fault hr hs
  | outOfFuel hs => exact .outOfFuel hs

theorem Parallel.ite {c : Prop} [Decidable c] {yes no : Rule α} {yes' no' : Rule α'}
    (hyes : Parallel C k A yes yes') (hno : Parallel C k A no no') :
    Parallel C k A (if c then yes else no) (if c then yes' else no') := by
  split
  · exact hyes
  · exact hno

/-! ### Small rules -/

theorem parallel_get : Parallel C k (State.Like C k) get get := fun _ _ hs => .ok hs hs

/-- A rule that looks at its state goes on with it. -/
theorem get_bind_apply (next : State → Rule α) (s : State) : (get >>= next) s = next s s := rfl

/-- What is done next may depend on the kind of the next token. -/
theorem parallel_peekKind {next : Kind → Rule β} {next' : Kind → Rule β'}
    (h : ∀ s s', s.Like C k s' → Ended C k B (next s.next.kind s) (next' s.next.kind s')) :
    Parallel C k B (peekKind >>= next) (peekKind >>= next') := by
  intro s s' hs
  have hkind : s'.next.kind = s.next.kind := C.kind hs.next
  have hended := h s s' hs
  simp only [Bind.bind, EStateM.bind, peekKind]
  rw [hkind]
  exact hended

theorem parallel_check (kind : Kind) : Parallel C k (· = ·) (check kind) (check kind) :=
  fun _ _ hs => .ok (hs.startsWith kind).symm hs

theorem parallel_atEnd : Parallel C k (· = ·) atEnd atEnd := fun _ _ hs => .ok hs.atEnd.symm hs

theorem parallel_takeToken : Parallel C k C.token takeToken takeToken :=
  fun _ _ hs => .ok hs.next hs.advance

/-- A token of which the kind is known is read. -/
theorem ended_takeToken {kind : Kind} {next : Token → Rule β} {next' : Token → Rule β'}
    {s s' : State}
    (hs : s.Like C k s') (hkind : s.next.kind = kind)
    (hnext : ∀ t t', C.ofKind kind t t' → Parallel C k B (next t) (next' t')) :
    Ended C k B ((takeToken >>= next) s) ((takeToken >>= next') s') :=
  hnext s.next s'.next ⟨hs.next, hkind⟩ _ _ hs.advance

theorem parallel_accept (kind : Kind) : Parallel C k (· = ·) (accept kind) (accept kind) := by
  intro s s' hs
  unfold accept
  rw [hs.startsWith kind]
  split
  · exact .ok rfl hs.advance
  · exact .ok rfl hs

theorem parallel_acceptToken? (among : Kind → Bool) :
    Parallel C k (Option.Rel fun t t' => C.token t t' ∧ among t.kind = true) (acceptToken? among)
      (acceptToken? among) := by
  intro s s' hs
  unfold acceptToken?
  have hadvance := hs.advance
  cases hrest : s.rest with
  | nil =>
    have hrest' : s'.rest = [] := by simpa [hrest] using hs.rest
    rw [hrest']
    exact .ok .none hs
  | cons t rest =>
    obtain ⟨t', rest', ht, -, hrest'⟩ := List.forall₂_cons_left_iff.mp (hrest ▸ hs.rest)
    rw [hrest']
    dsimp only
    rw [C.kind ht]
    split
    · next hamong => exact .ok (.some ⟨ht, hamong⟩) hadvance
    · exact .ok .none hs

theorem parallel_fail (cause : Cause) :
    Parallel C k A (fail cause : Rule α) (fail cause : Rule α') :=
  fun _ _ hs => .fault (.parse hs.next cause) hs

theorem parallel_expect (kind : Kind) (cause : Cause) :
    Parallel C k (C.ofKind kind) (expect kind cause) (expect kind cause) := by
  intro s s' hs
  unfold expect
  rw [hs.startsWith kind]
  split
  · next hstarts => exact .ok ⟨hs.next, kind_next_of_startsWith hstarts⟩ hs.advance
  · exact parallel_fail cause s s' hs

theorem parallel_complain {t t' : Token} (ht : C.token t t') (cause : Cause) :
    Parallel C k (fun _ _ => True) (complain t cause) (complain t' cause) :=
  fun _ _ hs => .ok trivial (hs.report (.parse ht cause))

theorem parallel_complainNext (cause : Cause) :
    Parallel C k (fun _ _ => True) (complainNext cause) (complainNext cause) :=
  fun _ _ hs => .ok trivial (hs.report (.parse hs.next cause))

theorem parallel_freshId : Parallel C k C.id freshId freshId := by
  intro s s' hs
  refine .ok ?_ ⟨hs.rest, hs.ending, hs.last, hs.loops, ?_, fun i hi => ?_, hs.reports⟩
  · rw [hs.nextId]
    exact hs.ids s.nextId (Nat.le_refl _)
  · dsimp only
    rw [hs.nextId]
    exact Nat.add_right_comm _ _ _
  · exact hs.ids i (Nat.le_of_succ_le hi)

theorem parallel_withLoops {loops : Nat → Nat} {rule : Rule α} {rule' : Rule α'}
    (h : Parallel C k A rule rule') :
    Parallel C k A (withLoops loops rule) (withLoops loops rule') := by
  intro s s' hs
  have hback : ∀ {s₁ s₁' : State}, s₁.Like C k s₁' →
      State.Like C k { s₁ with loops := s.loops } { s₁' with loops := s'.loops } :=
    fun hs₁ => ⟨hs₁.rest, hs₁.ending, hs₁.last, hs.loops, hs₁.nextId, hs₁.ids, hs₁.reports⟩
  have hended := h { s with loops := loops s.loops } { s' with loops := loops s'.loops }
    ⟨hs.rest, hs.ending, hs.last, congrArg loops hs.loops, hs.nextId, hs.ids, hs.reports⟩
  unfold withLoops
  generalize rule { s with loops := loops s.loops } = result at hended ⊢
  generalize rule' { s' with loops := loops s'.loops } = result' at hended ⊢
  cases hended with
  | ok ha hs₁ => exact .ok ha (hback hs₁)
  | fault hr hs₁ => exact .fault hr (hback hs₁)
  | outOfFuel hs₁ => exact .outOfFuel (hback hs₁)

theorem parallel_recover {rule : Rule α} {rule' : Rule α'} (h : Parallel C k A rule rule') :
    Parallel C k (Option.Rel A) (recover rule) (recover rule') := by
  intro s s' hs
  have hended := h s s' hs
  unfold recover
  generalize rule s = result at hended ⊢
  generalize rule' s' = result' at hended ⊢
  cases hended with
  | ok ha hs₁ => exact .ok (.some ha) hs₁
  | fault hr hs₁ => exact .ok .none (hs₁.report hr).synchronize
  | outOfFuel hs₁ => exact .outOfFuel hs₁

end Parallel

/-! ### Rules without a circle -/

theorem parallel_parameterList (fuel count : Nat) :
    Parallel C k (List.Forall₂ (C.ofKind .identifier)) (parameterList fuel count)
      (parameterList fuel count) := by
  induction fuel generalizing count with
  | zero => exact parallel_outOfFuel
  | succ fuel ih =>
    unfold parameterList
    have hlist : Parallel C k (List.Forall₂ (C.ofKind .identifier))
        (do
          let name ← expect .identifier .expectedParameterName
          if ← accept .comma then
            let names ← parameterList fuel (count + 1)
            return name :: names
          else return [name])
        (do
          let name ← expect .identifier .expectedParameterName
          if ← accept .comma then
            let names ← parameterList fuel (count + 1)
            return name :: names
          else return [name]) := by
      refine (parallel_expect _ _).bind fun name name' hname => ?_
      refine (parallel_accept _).bind fun taken _ htaken => ?_
      subst htaken
      refine .ite ?_ (.pure (.cons hname .nil))
      exact (ih (count + 1)).bind fun names names' hnames => .pure (.cons hname hnames)
    exact .ite ((parallel_complainNext _).bind fun _ _ _ => hlist) hlist

theorem parallel_parameters (fuel : Nat) :
    Parallel C k (List.Forall₂ (C.ofKind .identifier)) (parameters fuel) (parameters fuel) := by
  refine (parallel_check _).bind fun closed _ hclosed => ?_
  subst hclosed
  exact .ite (.pure .nil) (parallel_parameterList fuel 0)

/-- The trees of two steps, on tokens that correspond. -/
theorem like_step {name name' step step' : Token} {readId readId' assignId assignId' : Nat}
    (hname : C.ofKind .identifier name name') (hstep : C.token step step')
    (hread : C.id readId readId') (hassign : C.id assignId assignId') :
    C.expr (.step readId assignId name
        (if step.kind = .plusPlus then ⟨.plus, "+", step.line⟩ else ⟨.minus, "-", step.line⟩))
      (.step readId' assignId' name'
        (if step'.kind = .plusPlus then ⟨.plus, "+", step'.line⟩
          else ⟨.minus, "-", step'.line⟩)) := by
  intro bs
  have hoperator : C.likeness.token
      (if step.kind = .plusPlus then ⟨.plus, "+", step.line⟩ else ⟨.minus, "-", step.line⟩)
      (if step'.kind = .plusPlus then ⟨.plus, "+", step'.line⟩ else ⟨.minus, "-", step'.line⟩) := by
    have hplus : ¬Kind.plus.IsKeyword := by decide
    have hminus : ¬Kind.minus.IsKeyword := by decide
    rw [C.kind hstep]
    split
    · exact ⟨C.made hstep (by decide) hplus "+", hplus⟩
    · exact ⟨C.made hstep (by decide) hminus "-", hminus⟩
  exact .assign ⟨hassign, hname.1, .inl hname.2⟩
    (.binary (.var ⟨hread, hname.1, .inl hname.2⟩) hoperator .literal)

theorem ended_countingStep {s s' : State} (hs : s.Like C k s') (hstarts : s.startsStep = true) :
    Ended C k C.expr (countingStep s) (countingStep s') := by
  refine ended_takeToken hs (kind_next_of_startsStep hstarts) fun name name' hname => ?_
  refine parallel_takeToken.bind fun step step' hstep => ?_
  refine (parallel_accept _).bind fun _ _ _ => ?_
  refine parallel_freshId.bind fun readId readId' hread => ?_
  exact parallel_freshId.bind fun assignId assignId' hassign =>
    .pure (like_step hname hstep hread hassign)

theorem parallel_loopExit {keyword keyword' : Token} (hkeyword : C.token keyword keyword')
    (cause : Cause) {build : Token → Stmt} (hbuild : C.stmt (build keyword) (build keyword')) :
    Parallel C k C.stmt (loopExit keyword cause build) (loopExit keyword' cause build) := by
  refine parallel_get.bind fun s s' hs => ?_
  have hend : Parallel C k C.stmt
      (do let _ ← expect .semicolon .expectedExitEnd; return build keyword)
      (do let _ ← expect .semicolon .expectedExitEnd; return build keyword') :=
    (parallel_expect _ _).bind fun _ _ _ => .pure hbuild
  simp only [hs.loops]
  exact .ite ((parallel_complain hkeyword _).bind fun _ _ _ => hend) hend

theorem parallel_terminate {e? e?' : Option Expr} (he : Option.Rel C.expr e? e?') (cause : Cause) :
    Parallel C k (fun _ _ => True) (terminate e? cause) (terminate e?' cause) := by
  refine parallel_get.bind fun s s' hs => ?_
  have hlast : (s'.last.any fun t => t.kind = .semicolon) =
      s.last.any fun t => t.kind = .semicolon := by
    have hlast := hs.last
    generalize s.last = last at hlast ⊢
    generalize s'.last = last' at hlast ⊢
    cases hlast with
    | none => rfl
    | some ht => simp [C.kind ht]
  have hlambda : e?'.any Expr.isLambda = e?.any Expr.isLambda := by
    cases he with
    | none => rfl
    | some he => cases he [] <;> rfl
  rw [hlast, hlambda]
  refine .ite (.pure trivial) (.ite ?_ ?_)
  · exact (parallel_accept _).bind fun _ _ _ => .pure trivial
  · exact (parallel_expect _ _).bind fun _ _ _ => .pure trivial

/-- The operators of arithmetic and comparison are no keywords. -/
theorem Level.not_isKeyword {l : Level} {kind : Kind} (h : l.operators kind = true)
    (hdisjunction : l ≠ .disjunction) (hconjunction : l ≠ .conjunction) : ¬kind.IsKeyword := by
  cases l with
  | disjunction => exact absurd rfl hdisjunction
  | conjunction => exact absurd rfl hconjunction
  | equality =>
    simp only [operators, Bool.or_eq_true, decide_eq_true_eq] at h
    rcases h with rfl | rfl <;> decide
  | comparison =>
    simp only [operators, Bool.or_eq_true, decide_eq_true_eq] at h
    rcases h with ((rfl | rfl) | rfl) | rfl <;> decide
  | sum =>
    simp only [operators, Bool.or_eq_true, decide_eq_true_eq] at h
    rcases h with rfl | rfl <;> decide
  | product =>
    simp only [operators, Bool.or_eq_true, decide_eq_true_eq] at h
    rcases h with (rfl | rfl) | rfl <;> decide

theorem Level.like_join (l : Level) {left left' operator operator' right right'}
    (hleft : C.expr left left') (hoperator : C.token operator operator')
    (hamong : l.operators operator.kind = true) (hright : C.expr right right') :
    C.expr (l.join left operator right) (l.join left' operator' right') := by
  intro bs
  cases l with
  | disjunction | conjunction => exact .logical (hleft bs) hoperator (hright bs)
  | equality | comparison | sum | product =>
    have hkeyword := Level.not_isKeyword hamong nofun nofun
    exact .binary (hleft bs) ⟨hoperator, hkeyword⟩ (hright bs)

theorem like_assigned? {target target' value value' : Expr} (htarget : C.expr target target')
    (hvalue : C.expr value value') :
    Option.Rel C.expr (target.assigned? value) (target'.assigned? value') := by
  -- the shape of the targets does not depend on the marks
  have hshape := htarget []
  cases target with
  | var i name =>
    cases hshape with
    | var =>
      exact .some fun bs => by cases htarget bs with | var hname => exact .assign hname (hvalue bs)
  | get object name =>
    cases hshape with
    | get =>
      exact .some fun bs => by
        cases htarget bs with | get he hname => exact .set he hname (hvalue bs)
  | index b base key =>
    cases hshape with
    | index =>
      exact .some fun bs => by
        cases htarget bs with | index hb hbase hkey => exact .indexSet hb hbase hkey (hvalue bs)
  | _ =>
    cases hshape
    exact .none

theorem like_countedLoop {start start' : Option Stmt} {test test' step step' : Option Expr}
    {body body' : Stmt} (hstart : Option.Rel C.stmt start start')
    (htest : Option.Rel C.expr test test') (hstep : Option.Rel C.expr step step')
    (hbody : C.stmt body body') :
    C.stmt (.countedLoop start test step body) (.countedLoop start' test' step' body') := by
  have htested : C.expr (test.getD (.literal (.boolean true)))
      (test'.getD (.literal (.boolean true))) := by
    cases htest with
    | none => exact fun _ => .literal
    | some htest => exact htest
  have hloop : C.stmt (.countedLoop none test step body) (.countedLoop none test' step' body') := by
    intro bs
    cases hstep with
    | none => exact .loop (htested bs) (hbody bs)
    | some he =>
      have hstep := Stmt.Like.expression (he (false :: bs))
      exact .loopStep (htested bs) (.block (.cons (hbody (false :: bs)) (.cons hstep .nil))) hstep
  cases hstart with
  | none => exact hloop
  | some ha =>
    exact fun bs => .block (.cons (ha (false :: bs)) (.cons (hloop (false :: bs)) .nil))

/-! ### The rules of the grammar -/

/-- With this much fuel every rule reads tokens that correspond in the same way. -/
structure RulesParallel (C : Correspondence) (k fuel : Nat) : Prop where
  declarations : ∀ inBlock, Parallel C k C.stmts (declarations fuel inBlock)
    (declarations fuel inBlock)
  declaration : Parallel C k C.stmt (declaration fuel) (declaration fuel)
  methodList : Parallel C k C.functions (methodList fuel) (methodList fuel)
  functionRest : ∀ name name', C.ofKind .identifier name name' →
    Parallel C k C.function (functionRest fuel name) (functionRest fuel name')
  variableRest : Parallel C k C.stmt (variableRest fuel) (variableRest fuel)
  block : Parallel C k C.stmts (block fuel) (block fuel)
  statement : Parallel C k C.stmt (statement fuel) (statement fuel)
  expressionStatement : Parallel C k C.stmt (expressionStatement fuel) (expressionStatement fuel)
  countedLoop : Parallel C k C.stmt (countedLoop fuel) (countedLoop fuel)
  loopStart : Parallel C k (Option.Rel C.stmt) (loopStart fuel) (loopStart fuel)
  optionalExpression : ∀ closing, Parallel C k (Option.Rel C.expr)
    (optionalExpression fuel closing) (optionalExpression fuel closing)
  expression : Parallel C k C.expr (expression fuel) (expression fuel)
  lambda : Parallel C k C.expr (lambda fuel) (lambda fuel)
  assignment : Parallel C k C.expr (assignment fuel) (assignment fuel)
  conditional : Parallel C k C.expr (conditional fuel) (conditional fuel)
  level : ∀ l, Parallel C k C.expr (level fuel l) (level fuel l)
  levelRest : ∀ l left left', C.expr left left' →
    Parallel C k C.expr (levelRest fuel l left) (levelRest fuel l left')
  operand : ∀ l, Parallel C k C.expr (operand fuel l) (operand fuel l)
  unary : Parallel C k C.expr (unary fuel) (unary fuel)
  suffixes : ∀ value value', C.expr value value' →
    Parallel C k C.expr (suffixes fuel value) (suffixes fuel value')
  expressions : ∀ closing limited, Parallel C k C.exprs (expressions fuel closing limited)
    (expressions fuel closing limited)
  expressionList : ∀ limited count, Parallel C k C.exprs (expressionList fuel limited count)
    (expressionList fuel limited count)
  primary : Parallel C k C.expr (primary fuel) (primary fuel)

theorem rulesParallel_zero : RulesParallel C k 0 where
  declarations _ := parallel_outOfFuel
  declaration := parallel_outOfFuel
  methodList := parallel_outOfFuel
  functionRest _ _ _ := parallel_outOfFuel
  variableRest := parallel_outOfFuel
  block := parallel_outOfFuel
  statement := parallel_outOfFuel
  expressionStatement := parallel_outOfFuel
  countedLoop := parallel_outOfFuel
  loopStart := parallel_outOfFuel
  optionalExpression _ := parallel_outOfFuel
  expression := parallel_outOfFuel
  lambda := parallel_outOfFuel
  assignment := parallel_outOfFuel
  conditional := parallel_outOfFuel
  level _ := parallel_outOfFuel
  levelRest _ _ _ _ := parallel_outOfFuel
  operand _ := parallel_outOfFuel
  unary := parallel_outOfFuel
  suffixes _ _ _ := parallel_outOfFuel
  expressions _ _ := parallel_outOfFuel
  expressionList _ _ := parallel_outOfFuel
  primary := parallel_outOfFuel

namespace RulesParallel

variable {fuel : Nat} (h : RulesParallel C k fuel)

include h

theorem declarations_succ (inBlock : Bool) : Parallel C k C.stmts
    (Parser.declarations (fuel + 1) inBlock) (Parser.declarations (fuel + 1) inBlock) := by
  unfold Parser.declarations
  refine parallel_atEnd.bind fun ended _ hended => ?_
  subst hended
  refine .ite (.pure fun _ => .nil) ((parallel_check _).bind fun closed _ hclosed => ?_)
  subst hclosed
  refine .ite (.pure fun _ => .nil) ?_
  refine (parallel_recover h.declaration).bind fun first first' hfirst => ?_
  refine (h.declarations inBlock).bind fun others others' hothers => .pure ?_
  cases hfirst with
  | none => exact hothers
  | some hfirst => exact fun bs => .cons (hfirst bs) (hothers bs)

theorem declaration_succ :
    Parallel C k C.stmt (Parser.declaration (fuel + 1)) (Parser.declaration (fuel + 1)) := by
  unfold Parser.declaration
  refine parallel_peekKind fun s s' hs => ?_
  cases s.next.kind with
  | classKw =>
    refine parallel_takeToken.bind (fun _ _ _ => ?_) s s' hs
    refine (parallel_expect _ _).bind fun name name' hname => ?_
    refine (parallel_expect _ _).bind fun _ _ _ => ?_
    refine h.methodList.bind fun methods methods' hmethods => ?_
    exact (parallel_expect _ _).bind fun _ _ _ =>
      .pure fun bs => .classDecl hname (hmethods (false :: bs))
  | functionKw =>
    refine parallel_takeToken.bind (fun _ _ _ => ?_) s s' hs
    refine (parallel_expect _ _).bind fun name name' hname => ?_
    exact (h.functionRest name name' hname).bind fun decl decl' hdecl =>
      .pure fun bs => .function (fun hnone => hdecl.1 hnone) (hdecl.2 _ bs)
  | varKw => exact parallel_takeToken.bind (fun _ _ _ => h.variableRest) s s' hs
  | _ => exact h.statement s s' hs

theorem methodList_succ :
    Parallel C k C.functions (Parser.methodList (fuel + 1)) (Parser.methodList (fuel + 1)) := by
  unfold Parser.methodList
  refine parallel_atEnd.bind fun ended _ hended => ?_
  subst hended
  refine .ite (.pure fun _ => .nil) ((parallel_check _).bind fun closed _ hclosed => ?_)
  subst hclosed
  refine .ite (.pure fun _ => .nil) ?_
  refine (parallel_accept _).bind fun _ _ _ => ?_
  refine (parallel_expect _ _).bind fun name name' hname => ?_
  refine (h.functionRest name name' hname).bind fun method method' hmethod => ?_
  exact h.methodList.bind fun others others' hothers =>
    .pure fun bs => .cons (hmethod.2 false bs) (hothers bs)

theorem functionRest_succ {name name' : Token} (hname : C.ofKind .identifier name name') :
    Parallel C k C.function (Parser.functionRest (fuel + 1) name)
      (Parser.functionRest (fuel + 1) name') := by
  unfold Parser.functionRest
  refine (parallel_expect _ _).bind fun _ _ _ => ?_
  refine (parallel_parameters fuel).bind fun params params' hparams => ?_
  refine (parallel_expect _ _).bind fun _ _ _ => ?_
  refine (parallel_expect _ _).bind fun _ _ _ => ?_
  exact (parallel_withLoops h.block).bind fun body body' hbody =>
    .pure ⟨Option.some_ne_none name, fun _ bs => .mk (.some hname) hparams (hbody (false :: bs))⟩

theorem variableRest_succ :
    Parallel C k C.stmt (Parser.variableRest (fuel + 1)) (Parser.variableRest (fuel + 1)) := by
  unfold Parser.variableRest
  refine (parallel_expect _ _).bind fun name name' hname => ?_
  refine (parallel_accept _).bind fun taken _ htaken => ?_
  subst htaken
  refine .ite ?_ ?_
  · refine h.expression.bind fun value value' hvalue => ?_
    exact (parallel_terminate (.some hvalue) _).bind fun _ _ _ =>
      .pure fun bs => .varValue hname (hvalue bs)
  · exact (parallel_terminate .none _).bind fun _ _ _ => .pure fun _ => .var hname

theorem block_succ :
    Parallel C k C.stmts (Parser.block (fuel + 1)) (Parser.block (fuel + 1)) := by
  unfold Parser.block
  refine (h.declarations true).bind fun body body' hbody => ?_
  exact (parallel_expect _ _).bind fun _ _ _ => .pure hbody

theorem statement_succ :
    Parallel C k C.stmt (Parser.statement (fuel + 1)) (Parser.statement (fuel + 1)) := by
  unfold Parser.statement
  refine parallel_peekKind fun s s' hs => ?_
  cases s.next.kind with
  | printKw =>
    refine parallel_takeToken.bind (fun _ _ _ => ?_) s s' hs
    refine h.expression.bind fun value value' hvalue => ?_
    exact (parallel_terminate (.some hvalue) _).bind fun _ _ _ =>
      .pure fun bs => .print (hvalue bs)
  | ifKw =>
    refine parallel_takeToken.bind (fun _ _ _ => ?_) s s' hs
    refine (parallel_expect _ _).bind fun _ _ _ => ?_
    refine h.expression.bind fun test test' htest => ?_
    refine (parallel_expect _ _).bind fun _ _ _ => ?_
    refine h.statement.bind fun yes yes' hyes => ?_
    refine (parallel_accept _).bind fun taken _ htaken => ?_
    subst htaken
    refine .ite ?_ (.pure fun bs => .ifThen (htest bs) (hyes bs))
    exact h.statement.bind fun no no' hno =>
      .pure fun bs => .ifElse (htest bs) (hyes bs) (hno bs)
  | leftBrace =>
    refine parallel_takeToken.bind (fun _ _ _ => ?_) s s' hs
    exact h.block.bind fun body body' hbody => .pure fun bs => .block (hbody (false :: bs))
  | whileKw =>
    refine parallel_takeToken.bind (fun _ _ _ => ?_) s s' hs
    refine (parallel_expect _ _).bind fun _ _ _ => ?_
    refine h.expression.bind fun test test' htest => ?_
    refine (parallel_expect _ _).bind fun _ _ _ => ?_
    exact (parallel_withLoops h.statement).bind fun body body' hbody =>
      .pure fun bs => .loop (htest bs) (hbody bs)
  | forKw => exact parallel_takeToken.bind (fun _ _ _ => h.countedLoop) s s' hs
  | breakKw =>
    exact parallel_takeToken.bind (fun keyword keyword' hkeyword =>
      parallel_loopExit hkeyword _ fun _ => .exitLoop hkeyword) s s' hs
  | continueKw =>
    exact parallel_takeToken.bind (fun keyword keyword' hkeyword =>
      parallel_loopExit hkeyword _ fun _ => .nextIteration hkeyword) s s' hs
  | returnKw =>
    refine parallel_takeToken.bind (fun keyword keyword' hkeyword => ?_) s s' hs
    refine (parallel_check _).bind fun closed _ hclosed => ?_
    subst hclosed
    refine .ite ?_ ?_
    · exact (parallel_terminate .none _).bind fun _ _ _ => .pure fun _ => .result hkeyword
    · refine h.expression.bind fun value value' hvalue => ?_
      exact (parallel_terminate (.some hvalue) _).bind fun _ _ _ =>
        .pure fun bs => .resultValue hkeyword (hvalue bs)
  | _ => exact h.expressionStatement s s' hs

theorem expressionStatement_succ : Parallel C k C.stmt (Parser.expressionStatement (fuel + 1))
    (Parser.expressionStatement (fuel + 1)) := by
  unfold Parser.expressionStatement
  refine h.expression.bind fun value value' hvalue => ?_
  exact (parallel_terminate (.some hvalue) _).bind fun _ _ _ =>
    .pure fun bs => .expression (hvalue bs)

theorem countedLoop_succ :
    Parallel C k C.stmt (Parser.countedLoop (fuel + 1)) (Parser.countedLoop (fuel + 1)) := by
  unfold Parser.countedLoop
  refine (parallel_expect _ _).bind fun _ _ _ => ?_
  refine h.loopStart.bind fun start start' hstart => ?_
  refine (h.optionalExpression _).bind fun test test' htest => ?_
  refine (parallel_expect _ _).bind fun _ _ _ => ?_
  refine (h.optionalExpression _).bind fun step step' hstep => ?_
  refine (parallel_expect _ _).bind fun _ _ _ => ?_
  exact (parallel_withLoops h.statement).bind fun body body' hbody =>
    .pure (like_countedLoop hstart htest hstep hbody)

theorem loopStart_succ : Parallel C k (Option.Rel C.stmt) (Parser.loopStart (fuel + 1))
    (Parser.loopStart (fuel + 1)) := by
  unfold Parser.loopStart
  refine (parallel_accept _).bind fun closed _ hclosed => ?_
  subst hclosed
  refine .ite (.pure .none) ((parallel_accept _).bind fun taken _ htaken => ?_)
  subst htaken
  exact .ite (h.variableRest.map fun _ _ hs => .some hs)
    (h.expressionStatement.map fun _ _ hs => .some hs)

theorem optionalExpression_succ (closing : Kind) : Parallel C k (Option.Rel C.expr)
    (Parser.optionalExpression (fuel + 1) closing)
    (Parser.optionalExpression (fuel + 1) closing) := by
  unfold Parser.optionalExpression
  refine (parallel_check _).bind fun closed _ hclosed => ?_
  subst hclosed
  exact .ite (.pure .none) (h.expression.map fun _ _ he => .some he)

theorem expression_succ :
    Parallel C k C.expr (Parser.expression (fuel + 1)) (Parser.expression (fuel + 1)) := by
  unfold Parser.expression
  intro s s' hs
  rw [get_bind_apply, get_bind_apply, hs.startsStep, hs.startsLambda]
  split
  · next hstarts => exact ended_countingStep hs hstarts
  · split
    · exact h.lambda s s' hs
    · exact h.assignment s s' hs

theorem lambda_succ :
    Parallel C k C.expr (Parser.lambda (fuel + 1)) (Parser.lambda (fuel + 1)) := by
  unfold Parser.lambda
  refine parallel_takeToken.bind fun _ _ _ => ?_
  refine (parallel_parameters fuel).bind fun params params' hparams => ?_
  refine (parallel_expect _ _).bind fun _ _ _ => ?_
  refine (parallel_expect _ _).bind fun arrow arrow' harrow => ?_
  refine (parallel_accept _).bind fun taken _ htaken => ?_
  subst htaken
  refine .ite ?_ ?_
  · exact (parallel_withLoops h.block).bind fun body body' hbody =>
      .pure fun bs => .lambda (.mk .none hparams (hbody (false :: bs)))
  · refine h.expression.bind fun value value' hvalue => .pure fun bs => .lambda ?_
    exact .mk .none hparams (.cons (.resultValue harrow.1 (hvalue (false :: bs))) .nil)

theorem assignment_succ :
    Parallel C k C.expr (Parser.assignment (fuel + 1)) (Parser.assignment (fuel + 1)) := by
  unfold Parser.assignment
  refine h.conditional.bind fun target target' htarget => ?_
  refine (parallel_acceptToken? _).bind fun equals? equals?' hequals? => ?_
  cases hequals? with
  | none => exact .pure htarget
  | some hequals =>
    refine h.assignment.bind fun value value' hvalue => ?_
    have hassigned := like_assigned? htarget hvalue
    generalize target.assigned? value = assigned at hassigned ⊢
    generalize target'.assigned? value' = assigned' at hassigned ⊢
    cases hassigned with
    | none => exact (parallel_complain hequals.1 _).bind fun _ _ _ => .pure htarget
    | some he => exact .pure he

theorem conditional_succ :
    Parallel C k C.expr (Parser.conditional (fuel + 1)) (Parser.conditional (fuel + 1)) := by
  unfold Parser.conditional
  refine (h.level _).bind fun test test' htest => ?_
  refine (parallel_accept _).bind fun taken _ htaken => ?_
  subst htaken
  refine .ite ?_ (.pure htest)
  refine h.expression.bind fun yes yes' hyes => ?_
  refine (parallel_expect _ _).bind fun _ _ _ => ?_
  exact h.conditional.bind fun no no' hno =>
    .pure fun bs => .conditional (htest bs) (hyes bs) (hno bs)

theorem level_succ (l : Level) :
    Parallel C k C.expr (Parser.level (fuel + 1) l) (Parser.level (fuel + 1) l) := by
  unfold Parser.level
  exact (h.operand l).bind fun left left' hleft => h.levelRest l left left' hleft

theorem levelRest_succ (l : Level) {left left' : Expr} (hleft : C.expr left left') :
    Parallel C k C.expr (Parser.levelRest (fuel + 1) l left)
      (Parser.levelRest (fuel + 1) l left') := by
  unfold Parser.levelRest
  refine (parallel_acceptToken? _).bind fun operator? operator?' hoperator? => ?_
  cases hoperator? with
  | none => exact .pure hleft
  | some hoperator =>
    exact (h.operand l).bind fun right right' hright =>
      h.levelRest l _ _ (l.like_join hleft hoperator.1 hoperator.2 hright)

theorem operand_succ (l : Level) :
    Parallel C k C.expr (Parser.operand (fuel + 1) l) (Parser.operand (fuel + 1) l) := by
  unfold Parser.operand
  cases l.tighter? with
  | none => exact h.unary
  | some tighter => exact h.level tighter

theorem unary_succ :
    Parallel C k C.expr (Parser.unary (fuel + 1)) (Parser.unary (fuel + 1)) := by
  unfold Parser.unary
  refine (parallel_acceptToken? _).bind fun operator? operator?' hoperator? => ?_
  cases hoperator? with
  | none => exact h.primary.bind fun value value' hvalue => h.suffixes value value' hvalue
  | @some operator operator' hoperator =>
    have hkeyword : ¬operator.kind.IsKeyword := by
      have hamong := hoperator.2
      simp only [Bool.or_eq_true, decide_eq_true_eq] at hamong
      rcases hamong with hkind | hkind <;> rw [hkind] <;> decide
    exact h.unary.bind fun value value' hvalue =>
      .pure fun bs => .unary ⟨hoperator.1, hkeyword⟩ (hvalue bs)

theorem suffixes_succ {value value' : Expr} (hvalue : C.expr value value') :
    Parallel C k C.expr (Parser.suffixes (fuel + 1) value) (Parser.suffixes (fuel + 1) value') := by
  unfold Parser.suffixes
  refine parallel_peekKind fun s s' hs => ?_
  cases hkind : s.next.kind with
  | leftParen =>
    refine parallel_takeToken.bind (fun _ _ _ => ?_) s s' hs
    refine (h.expressions _ _).bind fun arguments arguments' harguments => ?_
    exact (parallel_expect _ _).bind fun paren paren' hparen =>
      h.suffixes _ _ fun bs => .call (hvalue bs) (hparen.plain (by decide)) (harguments bs)
  | dot =>
    refine parallel_takeToken.bind (fun _ _ _ => ?_) s s' hs
    exact (parallel_expect _ _).bind fun name name' hname =>
      h.suffixes _ _ fun bs => .get (hvalue bs) (hname.plain (by decide))
  | leftBracket =>
    refine ended_takeToken hs hkind fun bracket bracket' hbracket => ?_
    refine h.expression.bind fun key key' hkey => ?_
    exact (parallel_expect _ _).bind fun _ _ _ =>
      h.suffixes _ _ fun bs => .index (hbracket.plain (by decide)) (hvalue bs) (hkey bs)
  | _ => exact Parallel.pure hvalue s s' hs

theorem expressions_succ (closing : Kind) (limited : Bool) :
    Parallel C k C.exprs (Parser.expressions (fuel + 1) closing limited)
      (Parser.expressions (fuel + 1) closing limited) := by
  unfold Parser.expressions
  refine (parallel_check _).bind fun closed _ hclosed => ?_
  subst hclosed
  exact .ite (.pure fun _ => .nil) (h.expressionList limited 0)

theorem expressionList_succ (limited : Bool) (count : Nat) :
    Parallel C k C.exprs (Parser.expressionList (fuel + 1) limited count)
      (Parser.expressionList (fuel + 1) limited count) := by
  unfold Parser.expressionList
  have hlist : Parallel C k C.exprs
      (do
        let value ← Parser.expression fuel
        if ← accept .comma then
          let values ← Parser.expressionList fuel limited (count + 1)
          return value :: values
        else return [value])
      (do
        let value ← Parser.expression fuel
        if ← accept .comma then
          let values ← Parser.expressionList fuel limited (count + 1)
          return value :: values
        else return [value]) := by
    refine h.expression.bind fun value value' hvalue => ?_
    refine (parallel_accept _).bind fun taken _ htaken => ?_
    subst htaken
    refine .ite ?_ (.pure fun bs => .cons (hvalue bs) .nil)
    exact (h.expressionList limited (count + 1)).bind fun values values' hvalues =>
      .pure fun bs => .cons (hvalue bs) (hvalues bs)
  exact .ite ((parallel_complainNext _).bind fun _ _ _ => hlist) hlist

theorem primary_succ :
    Parallel C k C.expr (Parser.primary (fuel + 1)) (Parser.primary (fuel + 1)) := by
  unfold Parser.primary
  refine parallel_peekKind fun s s' hs => ?_
  cases hkind : s.next.kind with
  | falseKw | trueKw | nullKw | undefinedKw | newlineKw | number | string =>
    exact parallel_takeToken.bind (fun _ _ _ => .pure fun _ => .literal) s s' hs
  | selfKw =>
    refine ended_takeToken hs hkind fun keyword keyword' hkeyword => ?_
    exact parallel_freshId.bind fun id id' hid =>
      .pure fun _ => .self ⟨hid, hkeyword.1, .inr hkeyword.2⟩
  | identifier =>
    refine ended_takeToken hs hkind fun name name' hname => ?_
    exact parallel_freshId.bind fun id id' hid => .pure fun _ => .var ⟨hid, hname.1, .inl hname.2⟩
  | leftParen =>
    refine parallel_takeToken.bind (fun _ _ _ => ?_) s s' hs
    refine h.expression.bind fun inner inner' hinner => ?_
    exact (parallel_expect _ _).bind fun _ _ _ => .pure fun bs => .group (hinner bs)
  | leftBracket =>
    refine ended_takeToken hs hkind fun bracket bracket' hbracket => ?_
    refine (h.expressions _ _).bind fun elements elements' helements => ?_
    exact (parallel_expect _ _).bind fun _ _ _ =>
      .pure fun bs => .array (hbracket.plain (by decide)) (helements bs)
  | _ => exact parallel_fail _ s s' hs

end RulesParallel

theorem rulesParallel (fuel : Nat) : RulesParallel C k fuel := by
  induction fuel with
  | zero => exact rulesParallel_zero
  | succ fuel h =>
    exact
      { declarations := h.declarations_succ
        declaration := h.declaration_succ
        methodList := h.methodList_succ
        functionRest := fun _ _ => h.functionRest_succ
        variableRest := h.variableRest_succ
        block := h.block_succ
        statement := h.statement_succ
        expressionStatement := h.expressionStatement_succ
        countedLoop := h.countedLoop_succ
        loopStart := h.loopStart_succ
        optionalExpression := h.optionalExpression_succ
        expression := h.expression_succ
        lambda := h.lambda_succ
        assignment := h.assignment_succ
        conditional := h.conditional_succ
        level := h.level_succ
        levelRest := fun l _ _ => h.levelRest_succ l
        operand := h.operand_succ
        unary := h.unary_succ
        suffixes := fun _ _ => h.suffixes_succ
        expressions := h.expressions_succ
        expressionList := h.expressionList_succ
        primary := h.primary_succ }

/-! ### Programs -/

/-- What is read from tokens that correspond, with trees that correspond by `A`. -/
structure Parsed.Like (C : Correspondence) (k : Nat) {α : Type} (A : α → α → Prop)
    (p p' : Parsed α) : Prop where
  tree : Option.Rel A p.tree? p'.tree?
  nextId : p'.nextId = p.nextId + k
  reports : List.Forall₂ (Report.Like C.token) p.reports p'.reports

theorem like_ofTokens {tokens tokens' : List Token} (h : List.Forall₂ C.token tokens tokens')
    (hend : tokens = [] → C.token ⟨.endOfInput, "", 1⟩ ⟨.endOfInput, "", 1⟩) {firstId : Nat}
    (hids : ∀ i, firstId ≤ i → C.id i (i + k)) :
    (State.ofTokens tokens firstId).Like C k (.ofTokens tokens' (firstId + k)) := by
  have hlast : Option.Rel C.token tokens.getLast? tokens'.getLast? := by
    clear hend
    induction h with
    | nil => exact .none
    | @cons t t' ts ts' ht hts ih =>
      cases hts with
      | nil => exact .some ht
      | cons => simpa only [List.getLast?_cons_cons] using ih
  have hrest : List.Forall₂ C.token (tokens.takeWhile (·.kind ≠ .endOfInput))
      (tokens'.takeWhile (·.kind ≠ .endOfInput)) := by
    clear hend hlast
    induction h with
    | nil => exact .nil
    | cons ht _ ih =>
      simp only [List.takeWhile_cons, C.kind ht]
      split
      · exact .cons ht ih
      · exact .nil
  have hfind : Option.Rel C.token (tokens.find? (·.kind = .endOfInput))
      (tokens'.find? (·.kind = .endOfInput)) := by
    clear hend hlast hrest
    induction h with
    | nil => exact .none
    | cons ht _ ih =>
      simp only [List.find?_cons, C.kind ht]
      split
      · exact .some ht
      · exact ih
  refine ⟨hrest, ?_, .none, rfl, rfl, hids, .nil⟩
  unfold State.ofTokens
  dsimp only
  generalize tokens.find? (·.kind = .endOfInput) = found at hfind ⊢
  generalize tokens'.find? (·.kind = .endOfInput) = found' at hfind ⊢
  cases hfind with
  | some ht => exact ht
  | none =>
    -- an end marker is made on the line of the last token
    have hempty : tokens.getLast? = none → C.token ⟨.endOfInput, "", 1⟩ ⟨.endOfInput, "", 1⟩ :=
      fun hnone => hend (List.getLast?_eq_none_iff.mp hnone)
    generalize tokens.getLast? = last at hlast hempty ⊢
    generalize tokens'.getLast? = last' at hlast ⊢
    cases hlast with
    | none => exact hempty rfl
    | some ht => exact C.made ht (by decide) (by decide) ""

/-- **What a rule reads from tokens that correspond.** Whatever the numbers start from, and whether
or not there is anything to complain about. -/
theorem runRule_like {α : Type} {A : α → α → Prop} {rule : Nat → Rule α}
    (hrule : ∀ fuel, Parallel C k A (rule fuel) (rule fuel)) {tokens tokens' : List Token}
    (h : List.Forall₂ C.token tokens tokens')
    (hend : tokens = [] → C.token ⟨.endOfInput, "", 1⟩ ⟨.endOfInput, "", 1⟩) {firstId : Nat}
    (hids : ∀ i, firstId ≤ i → C.id i (i + k)) :
    (runRule rule tokens firstId).Like C k A (runRule rule tokens' (firstId + k)) := by
  have hended := hrule (fuelFor tokens) _ _ (like_ofTokens h hend hids)
  have hfuel : fuelFor tokens' = fuelFor tokens := by
    rw [fuelFor, fuelFor, h.length_eq]
  unfold runRule
  rw [hfuel]
  generalize rule (fuelFor tokens) (.ofTokens tokens firstId) = result at hended ⊢
  generalize rule (fuelFor tokens) (.ofTokens tokens' (firstId + k)) = result' at hended ⊢
  cases hended with
  | @ok tree tree' s s' htree hs =>
    have hempty : s'.reports.isEmpty = s.reports.isEmpty := by
      have hsize := hs.reports.length_eq
      simp only [Array.length_toList] at hsize
      simp only [Array.isEmpty, hsize]
    refine ⟨?_, hs.nextId, hs.reports⟩
    dsimp only
    rw [hempty]
    split
    · exact .some htree
    · exact .none
  | fault hr hs => exact ⟨.none, hs.nextId, (hs.report hr).reports⟩
  | outOfFuel hs => exact ⟨.none, hs.nextId, hs.reports⟩

/-- **Tokens that correspond are read as programs of one shape.** -/
theorem parseProgram_like {tokens tokens' : List Token} (h : List.Forall₂ C.token tokens tokens')
    (hend : tokens = [] → C.token ⟨.endOfInput, "", 1⟩ ⟨.endOfInput, "", 1⟩) {firstId : Nat}
    (hids : ∀ i, firstId ≤ i → C.id i (i + k)) :
    (parseProgram tokens firstId).Like C k C.stmts (parseProgram tokens' (firstId + k)) :=
  runRule_like (fun fuel => (rulesParallel fuel).declarations false) h hend hids

end Parser

end Roteiro
