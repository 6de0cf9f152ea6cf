import Roteiro.Proofs.Parser.Soundness
import Roteiro.Proofs.Parser.Spelling

/-!
# Reading one program behind another

The parser looks ahead, and a semicolon may be missing. So where a program ends may depend on what
follows. It does not if the program ends with a semicolon or with a closing brace, and if a
declaration follows: no operand ends in such a token, so nothing that stands behind can carry an
expression on, and no declaration starts with a token that a statement might end with.

`Carries` says so of a rule at one state: if it gives a result there without a complaint, then it
gives the same where more tokens follow. It need not do so where it stopped only because the tokens
were at an end, as the declarations of a block do; such a rule fails later.

* `rulesCarry`: every rule gives the same where a declaration follows, and with more fuel.
* `parseProgram_append`: two programs are read one behind the other.
-/

namespace Roteiro

namespace Grammar

/-- What is known of the first token of a symbol, if the symbol is not spelled by nothing. -/
private def Opening : Symbol → List Token → Prop
  | .declaration _, ts => Starts Kind.opensDeclaration ts
  | .statement _ _, ts => Starts Kind.opensStatement ts
  | .loopStart, ts => ts ≠ []
  | .expressionStatement, ts => Starts Kind.startsExpression ts
  | .expression, ts => Starts Kind.startsExpression ts
  | .assignment, ts => Starts Kind.startsExpression ts
  | .conditional, ts => Starts Kind.startsExpression ts
  | .level _, ts => Starts Kind.startsExpression ts
  | .operand _, ts => Starts Kind.startsExpression ts
  | .unary, ts => Starts Kind.startsExpression ts
  | .call, ts => Starts Kind.startsExpression ts
  | .primary, ts => Starts Kind.startsExpression ts
  | _, _ => True

private theorem opening {x : Symbol} {ts : List Token} {t : x.Tree} (h : Derives x ts t) :
    Opening x ts := by
  induction h with
  | classDeclaration hkeyword | functionDeclaration hkeyword | variableDeclaration hkeyword
  | print hkeyword | ifOnly hkeyword | ifElse hkeyword | whileLoop hkeyword | countedLoop hkeyword
  | exitLoop hkeyword | nextIteration hkeyword | result hkeyword =>
    exact .cons (by rw [hkeyword]; rfl)
  | block hopening => exact .cons (by rw [hopening]; rfl)
  | statementDeclaration _ ih => exact ih.imp fun k hk => by simp [Kind.opensDeclaration, hk]
  | bareExpression _ ih => exact ih.imp fun k hk => by simp [Kind.opensStatement, hk]
  | expressionStatement _ _ ih => exact ih.append
  | noStart | startVariable => exact List.cons_ne_nil _ _
  | startExpression _ ih => exact ih.ne_nil
  | step hname | assignName hname => exact .cons (by rw [hname]; rfl)
  | lambdaBlock hopenParen | lambdaValue hopenParen => exact .cons (by rw [hopenParen]; rfl)
  | assignmentExpression _ ih | conditionalAssignment _ ih | noChoice _ ih | firstOperand _ ih
  | tighterOperand _ _ ih | unaryOperand _ _ ih | plain _ ih | noSuffix _ ih => exact ih
  | assignProperty _ _ _ _ _ ih | assignEntry _ _ _ _ _ _ ih | choice _ _ _ _ _ ih
  | join _ _ _ ih | call _ _ _ _ _ ih | property _ _ _ ih | entry _ _ _ _ ih => exact ih.append
  | unary hoperator =>
    refine .cons ?_
    rcases hoperator with hbang | hminus
    · rw [hbang]; rfl
    · rw [hminus]; rfl
  | constant hconstant =>
    refine .cons ?_
    simp [Kind.startsExpression, Kind.startsValue, hconstant]
  | receiver hkeyword => exact .cons (by rw [hkeyword]; rfl)
  | name hname => exact .cons (by rw [hname]; rfl)
  | group hopening => exact .cons (by rw [hopening]; rfl)
  | array hbracket => exact .cons (by rw [hbracket]; rfl)
  | _ => exact trivial

theorem Derives.opensDeclaration {inLoop : Bool} {ts : List Token} {s : Stmt}
    (h : Derives (.declaration inLoop) ts s) : Starts Kind.opensDeclaration ts := opening h

theorem Derives.opensDeclaration_of_declarations {inLoop : Bool} {ts : List Token} {ss : List Stmt}
    (h : Derives (.declarations inLoop) ts ss) (hts : ts ≠ []) :
    Starts Kind.opensDeclaration ts := by
  cases h with
  | noDeclarations => exact absurd rfl hts
  | moreDeclarations hfirst => exact hfirst.opensDeclaration.append

theorem Derives.startsExpression {ts : List Token} {e : Expr} (h : Derives .expression ts e) :
    Starts Kind.startsExpression ts := opening h

theorem Derives.statement_ne_nil {inLoop closed : Bool} {ts : List Token} {s : Stmt}
    (h : Derives (.statement inLoop closed) ts s) : ts ≠ [] := (opening h).ne_nil

theorem Derives.loopStart_ne_nil {ts : List Token} {s? : Option Stmt}
    (h : Derives .loopStart ts s?) : ts ≠ [] := opening h

theorem Derives.unary_ne_nil {ts : List Token} {e : Expr} (h : Derives .unary ts e) : ts ≠ [] :=
  (opening h).ne_nil

end Grammar

namespace Parser

open Grammar

/-! ### States in front of more tokens -/

/-- The kinds of tokens behind which a statement may be over. -/
def closes (kind : Kind) : Bool := kind = .semicolon || kind = .rightBrace

theorem ne_of_closes {k : Kind} (k' : Kind) (h : closes k = true) (h' : closes k' = false) :
    k ≠ k' := by
  rintro rfl
  rw [h] at h'
  cases h'

/-- The tokens `us` follow what is still to be read. What was read last need not be known at the
start. -/
structure State.Joined (us : List Token) (s s' : State) : Prop where
  rest : s'.rest = s.rest ++ us
  ending : s'.ending.kind = s.ending.kind
  last : s.last = none ∨ s'.last = s.last
  loops : s'.loops = s.loops
  nextId : s'.nextId = s.nextId
  reports : s'.reports = s.reports

/-- If anything follows, the last token in front of it is one that closes. -/
structure State.Fits (us : List Token) (s : State) : Prop where
  proper : s.Proper
  closed : us ≠ [] → ∃ t, s.rest.getLast?.or s.last = some t ∧ closes t.kind = true

/-- Looking ahead shows the same whether or not anything follows. -/
def State.Sees (us : List Token) (s : State) : Prop := s.rest ≠ [] ∨ us = []

/-- Something was read. -/
structure State.Begun (us : List Token) (s : State) : Prop extends s.Fits us where
  begun : s.last ≠ none

/-- Something was read, and a statement cannot be over behind it. -/
structure State.Ahead (us : List Token) (s : State) : Prop extends s.Begun us where
  goesOn : ∀ t, s.last = some t → closes t.kind = false

/-- This token was read last. -/
structure State.Behind (us : List Token) (t : Token) (s : State) : Prop extends s.Fits us where
  read : s.last = some t

namespace State

variable {us : List Token} {s s' : State}

theorem Ahead.sees (h : s.Ahead us) : s.Sees us := by
  refine Decidable.or_iff_not_imp_left.mpr fun hrest => ?_
  refine Decidable.byContradiction fun hus => ?_
  obtain ⟨t, ht, hcloses⟩ := h.closed hus
  rw [Decidable.not_not.mp hrest, List.getLast?_nil, Option.none_or] at ht
  rw [h.goesOn t ht] at hcloses
  cases hcloses

theorem Fits.advance (h : s.Fits us) : s.advance.Fits us := by
  unfold State.advance
  cases hrest : s.rest with
  | nil => exact h
  | cons t rest =>
    refine ⟨h.proper, fun hus => ?_⟩
    obtain ⟨u, hu, hcloses⟩ := h.closed hus
    refine ⟨u, ?_, hcloses⟩
    rw [hrest, List.getLast?_cons] at hu
    cases hlast : rest.getLast? with
    | none => simpa [hlast] using hu
    | some v => simpa [hlast] using hu

theorem Behind.toBegun {t : Token} (h : s.Behind us t) : s.Begun us :=
  ⟨h.toFits, by rw [h.read]; exact Option.some_ne_none t⟩

theorem Behind.toAhead {t : Token} (h : s.Behind us t) (ht : closes t.kind = false) :
    s.Ahead us := by
  refine ⟨h.toBegun, fun u hu => ?_⟩
  cases h.read.symm.trans hu
  exact ht

theorem Fits.behind {t : Token} {rest : List Token} (h : s.Fits us) (hrest : s.rest = t :: rest) :
    s.advance.Behind us t := by
  refine ⟨h.advance, ?_⟩
  rw [State.advance, hrest]

/-- Neither the open loops nor the numbers matter. -/
theorem Fits.inLoops (h : s.Fits us) (loops : Nat) : State.Fits us { s with loops } :=
  ⟨h.proper, h.closed⟩

theorem Begun.inLoops (h : s.Begun us) (loops : Nat) : State.Begun us { s with loops } :=
  ⟨h.toFits.inLoops loops, h.begun⟩

theorem Begun.numbered (h : s.Begun us) (nextId : Nat) : State.Begun us { s with nextId } :=
  ⟨⟨h.proper, h.closed⟩, h.begun⟩

theorem Ahead.numbered (h : s.Ahead us) (nextId : Nat) : State.Ahead us { s with nextId } :=
  ⟨h.toBegun.numbered nextId, h.goesOn⟩

namespace Joined

variable (h : s.Joined us s')

include h

theorem head? (hsees : s.Sees us) : s'.rest.head? = s.rest.head? := by
  rw [h.rest]
  rcases hsees with hrest | rfl
  · cases hs : s.rest with
    | nil => exact absurd hs hrest
    | cons t rest => rfl
  · rw [List.append_nil]

theorem startsWith (hsees : s.Sees us) (kind : Kind) : s'.startsWith kind = s.startsWith kind := by
  rw [State.startsWith, State.startsWith, h.head? hsees]

theorem next_kind (hsees : s.Sees us) : s'.next.kind = s.next.kind := by
  rw [State.next, State.next, h.head? hsees]
  cases s.rest.head? with
  | none => exact h.ending
  | some t => rfl

theorem next (hrest : s.rest ≠ []) : s'.next = s.next := by
  rw [State.next, State.next, h.head? (.inl hrest)]
  cases hs : s.rest with
  | nil => exact absurd hs hrest
  | cons t rest => rfl

theorem advance (hsees : s.Sees us) : s.advance.Joined us s'.advance := by
  unfold State.advance
  have hrest' := h.rest
  cases hrest : s.rest with
  | nil =>
    have hus := hsees.resolve_left (fun hne => hne hrest)
    rw [hrest, hus] at hrest'
    rw [hrest']
    exact h
  | cons t rest =>
    rw [hrest, List.cons_append] at hrest'
    rw [hrest']
    exact ⟨rfl, h.ending, .inr rfl, h.loops, h.nextId, h.reports⟩

/-- A step is a name and a sign, and the last token is neither. -/
theorem startsStep (hfits : s.Fits us) (hsees : s.Sees us) : s'.startsStep = s.startsStep := by
  unfold State.startsStep
  rw [h.rest]
  by_cases hus : us = []
  · rw [hus, List.append_nil]
  · obtain ⟨u, hu, hcloses⟩ := hfits.closed hus
    cases hrest : s.rest with
    | nil => exact absurd hrest (hsees.resolve_right hus)
    | cons t rest =>
      cases rest with
      | cons => rfl
      | nil =>
        obtain rfl : t = u := by simpa [hrest] using hu
        have hkind := ne_of_closes .identifier hcloses rfl
        cases us <;> simp [hkind]

/-- Nor does a list of parameters end in such a token. -/
theorem startsLambda (hfits : s.Fits us) (hsees : s.Sees us) :
    s'.startsLambda = s.startsLambda := by
  unfold State.startsLambda
  rw [h.rest]
  by_cases hus : us = []
  · rw [hus, List.append_nil]
  · obtain ⟨u, hu, hcloses⟩ := hfits.closed hus
    have harrow : ∀ rest : List Token, rest.getLast? = some u →
        arrowAhead (rest ++ us) = arrowAhead rest := by
      intro rest hlast
      induction rest with
      | nil => cases hlast
      | cons t rest ih =>
        cases rest with
        | nil =>
          obtain rfl : t = u := by simpa using hlast
          have hname := ne_of_closes .identifier hcloses rfl
          have hcomma := ne_of_closes .comma hcloses rfl
          have hparen := ne_of_closes .rightParen hcloses rfl
          simp [arrowAhead, hname, hcomma, hparen]
        | cons v rest =>
          rw [List.cons_append, arrowAhead, arrowAhead]
          split
          · exact ih hlast
          · rfl
    cases hrest : s.rest with
    | nil => exact absurd hrest (hsees.resolve_right hus)
    | cons t rest =>
      rw [hrest] at hu
      cases rest with
      | nil =>
        obtain rfl : t = u := by simpa using hu
        have hparen := ne_of_closes .leftParen hcloses rfl
        simp [hparen]
      | cons v rest =>
        dsimp only [List.cons_append]
        rw [← List.cons_append, harrow (v :: rest) hu]

end Joined

end State

/-! ### Rules in front of more tokens -/

/-- The state in which a rule has ended. -/
def stateOf {α : Type} : EStateM.Result Stop State α → State
  | .ok _ s => s
  | .error _ s => s

/-- If a rule gives a result without a complaint, and `Going` holds of the state behind it, then the
other rule gives the same result where `us` follows. What is known of the state in front is the
condition `C`, and what is known behind it is `D`. -/
structure Carries (us : List Token) (Going : State → Prop) (C : Prop) {α : Type}
    (rule rule' : Rule α) (s : State) (D : α → State → Prop) : Prop where
  grows : s.reports.size ≤ (stateOf (rule s)).reports.size
  carries : C → ∀ a s₁, rule s = .ok a s₁ → s₁.reports.size = 0 →
    D a s₁ ∧ (Going s₁ → ∀ s', s.Joined us s' → ∃ s₁', rule' s' = .ok a s₁' ∧ s₁.Joined us s₁')

/-- In every case. -/
def always (_ : State) : Prop := True

section Carries

variable {us : List Token} {Going Going' : State → Prop} {C C' : Prop} {α β : Type}
  {rule rule' : Rule α} {next next' : α → Rule β} {s : State} {D D' : α → State → Prop}
  {E : β → State → Prop}

/-- The part of the result and that of the state, where a rule is known to end well. -/
theorem Carries.of_ok {a : α} {s₁ : State} (hrun : rule s = .ok a s₁)
    (hgrows : s.reports.size ≤ s₁.reports.size) (hD : C → D a s₁)
    (hjoined : C → Going s₁ → ∀ s', s.Joined us s' →
      ∃ s₁', rule' s' = .ok a s₁' ∧ s₁.Joined us s₁') : Carries us Going C rule rule' s D := by
  constructor
  · rw [hrun]
    exact hgrows
  · intro hc b s₂ hrun' _
    cases hrun.symm.trans hrun'
    exact ⟨hD hc, hjoined hc⟩

/-- A rule that gives no result without a complaint. -/
theorem Carries.never (hgrows : s.reports.size ≤ (stateOf (rule s)).reports.size)
    (hnever : C → ∀ a s₁, rule s = .ok a s₁ → s₁.reports.size ≠ 0) :
    Carries us Going C rule rule' s D :=
  ⟨hgrows, fun hc a s₁ hrun hquiet => absurd hquiet (hnever hc a s₁ hrun)⟩

theorem Carries.of_error {e : Stop} {s₁ : State} (hrun : rule s = .error e s₁)
    (hgrows : s.reports.size ≤ s₁.reports.size) : Carries us Going C rule rule' s D := by
  refine .never (by rw [hrun]; exact hgrows) fun _ a s₂ hrun' => ?_
  cases hrun.symm.trans hrun'

theorem Carries.mono (h : Carries us Going C rule rule' s D) (hC : C' → C)
    (hD : ∀ a s₁, C' → D a s₁ → D' a s₁) : Carries us Going C' rule rule' s D' := by
  refine ⟨h.grows, fun hc a s₁ hrun hquiet => ?_⟩
  obtain ⟨hpost, hjoined⟩ := h.carries (hC hc) a s₁ hrun hquiet
  exact ⟨hD a s₁ hc hpost, hjoined⟩

/-- Two rules in sequence. The first one need only carry where the second one does. -/
theorem Carries.bind_of (h : Carries us Going' C rule rule' s D)
    (hnext : ∀ a s₁, Carries us Going (D a s₁) (next a) (next' a) s₁ E)
    (hgoing : ∀ a s₁ b s₂, next a s₁ = .ok b s₂ → Going s₂ → Going' s₁) :
    Carries us Going C (rule >>= next) (rule' >>= next') s E := by
  have hgrows := h.grows
  cases hfirst : rule s with
  | error e s₁ =>
    rw [hfirst] at hgrows
    have hrun : (rule >>= next) s = .error e s₁ := by simp only [Bind.bind, EStateM.bind, hfirst]
    exact .of_error hrun hgrows
  | ok a s₁ =>
    rw [hfirst] at hgrows
    have hsecond := hnext a s₁
    have hrun : (rule >>= next) s = next a s₁ := by simp only [Bind.bind, EStateM.bind, hfirst]
    constructor
    · rw [hrun]
      exact Nat.le_trans hgrows hsecond.grows
    · intro hc b s₂ hrun₂ hquiet
      rw [hrun] at hrun₂
      have hgrows₂ : s₁.reports.size ≤ s₂.reports.size := by
        have hgrows₂ := hsecond.grows
        rwa [hrun₂] at hgrows₂
      obtain ⟨hpost, hjoined⟩ := h.carries hc a s₁ hfirst
        (Nat.eq_zero_of_le_zero (hquiet ▸ hgrows₂))
      obtain ⟨hpost₂, hjoined₂⟩ := hsecond.carries hpost b s₂ hrun₂ hquiet
      refine ⟨hpost₂, fun hgo s' hs' => ?_⟩
      obtain ⟨s₁', hfirst', hs₁'⟩ := hjoined (hgoing a s₁ b s₂ hrun₂ hgo) s' hs'
      obtain ⟨s₂', hsecond', hs₂'⟩ := hjoined₂ hgo s₁' hs₁'
      refine ⟨s₂', ?_, hs₂'⟩
      simp only [Bind.bind, EStateM.bind, hfirst', hsecond']

theorem Carries.bind (h : Carries us always C rule rule' s D)
    (hnext : ∀ a s₁, Carries us Going (D a s₁) (next a) (next' a) s₁ E) :
    Carries us Going C (rule >>= next) (rule' >>= next') s E :=
  h.bind_of hnext fun _ _ _ _ _ _ => trivial

theorem Carries.pure {a : α} (h : C → D a s) :
    Carries us Going C (Pure.pure a) (Pure.pure a) s D :=
  .of_ok rfl (Nat.le_refl _) h fun _ _ s' hs' => ⟨s', rfl, hs'⟩

theorem Carries.map {f : α → β} (h : Carries us always C rule rule' s fun a s₁ => E (f a) s₁) :
    Carries us Going C (f <$> rule) (f <$> rule') s E := by
  have hbind : ∀ r : Rule α, (f <$> r) = r >>= fun a => Pure.pure (f a) := by
    intro r
    funext s₁
    simp only [Functor.map, EStateM.map, Bind.bind, EStateM.bind]
    cases r s₁ <;> rfl
  rw [hbind, hbind]
  exact h.bind fun a s₁ => .pure id

theorem carries_throw (stop : Stop) : Carries us Going C (throw stop) rule' s D :=
  .of_error rfl (Nat.le_refl _)

/-- What starts with a token gives nothing where no token is left. -/
theorem Carries.of_sees (h : Carries us Going (C ∧ s.Sees us) rule rule' s D)
    (hnever : C → s.rest = [] → ∀ a s₁, rule s = .ok a s₁ → s₁.reports.size ≠ 0) :
    Carries us Going C rule rule' s D := by
  by_cases hrest : s.rest = []
  · exact .never h.grows fun hc => hnever hc hrest
  · exact h.mono (fun hc => ⟨hc, .inl hrest⟩) fun _ _ _ => id

/-- A rule that depends on what is seen from the state. -/
theorem Carries.look {γ : Type} (look : State → γ) (f f' : γ → Rule β)
    (hlook : C → ∀ s', s.Joined us s' → look s' = look s)
    (h : Carries us Going C (f (look s)) (f' (look s)) s E) :
    Carries us Going C (fun s => f (look s) s) (fun s => f' (look s) s) s E := by
  refine ⟨h.grows, fun hc b s₁ hrun hquiet => ?_⟩
  obtain ⟨hpost, hjoined⟩ := h.carries hc b s₁ hrun hquiet
  refine ⟨hpost, fun hgo s' hs' => ?_⟩
  rw [hlook hc s' hs']
  exact hjoined hgo s' hs'

theorem Carries.peek {f f' : Kind → Rule β} (hsees : C → s.Sees us)
    (h : Carries us Going C (f s.next.kind) (f' s.next.kind) s E) :
    Carries us Going C (peekKind >>= f) (peekKind >>= f') s E :=
  Carries.look (fun s => s.next.kind) f f' (fun hc _ hs' => hs'.next_kind (hsees hc)) h

/-! ### Small rules -/

/-- What follows starts with a declaration. -/
def Declares (us : List Token) : Prop := ∀ t ∈ us.head?, t.kind.opensDeclaration = true

/-- A token of a kind with which no declaration starts is seen only where it belongs. -/
theorem State.Joined.startsWith_of_not_opens (hus : Declares us) {s' : State} (h : s.Joined us s')
    {kind : Kind} (hkind : kind.opensDeclaration = false) :
    s'.startsWith kind = s.startsWith kind := by
  cases hrest : s.rest with
  | cons t rest => exact h.startsWith (.inl (by rw [hrest]; exact List.cons_ne_nil _ _)) kind
  | nil =>
    have hrest' := h.rest
    rw [hrest, List.nil_append] at hrest'
    rw [State.startsWith, State.startsWith, hrest', hrest]
    cases hhead : us.head? with
    | none => rfl
    | some t =>
      have ht : t.kind ≠ kind := by
        rintro rfl
        rw [hus t hhead] at hkind
        cases hkind
      simp [ht]

/-- A rule that gives nothing but `b` at the end of the tokens need only carry where it is not at
the end. -/
theorem Carries.unlessAtEnd {f f' : Bool → Rule β} {b : β} (hf : f true = Pure.pure b)
    (hf' : f' true = Pure.pure b) (hend : C → E b s)
    (hgo : s.rest ≠ [] → Carries us (State.Sees us) C (f false) (f' false) s E) :
    Carries us (State.Sees us) C (Parser.atEnd >>= f) (Parser.atEnd >>= f') s E := by
  have hat : ∀ {g : Bool → Rule β} {s : State}, (Parser.atEnd >>= g) s = g s.rest.isEmpty s := rfl
  by_cases hrest : s.rest = []
  · have hrun : (Parser.atEnd >>= f) s = .ok b s := by
      rw [hat, hrest, List.isEmpty_nil, hf]
      rfl
    refine .of_ok hrun (Nat.le_refl _) hend fun hc hgo s' hs' => ⟨s', ?_, hs'⟩
    have hus : us = [] := hgo.resolve_left (fun hne => hne hrest)
    rw [hat, hs'.rest, hrest, hus, List.append_nil, List.isEmpty_nil, hf']
    rfl
  · have hempty : s.rest.isEmpty = false := by simpa using hrest
    have hcarries := hgo hrest
    constructor
    · rw [hat, hempty]
      exact hcarries.grows
    · intro hc a s₁ hrun hquiet
      rw [hat, hempty] at hrun
      obtain ⟨hpost, hjoined⟩ := hcarries.carries hc a s₁ hrun hquiet
      refine ⟨hpost, fun hgo s' hs' => ?_⟩
      have hempty' : s'.rest.isEmpty = false := by simp [hs'.rest, hrest]
      rw [hat, hempty']
      exact hjoined hgo s' hs'

theorem Carries.check (hus : Declares us) {kind : Kind} {f f' : Bool → Rule β}
    (hkind : kind.opensDeclaration = false)
    (h : Carries us Going C (f (s.startsWith kind)) (f' (s.startsWith kind)) s E) :
    Carries us Going C (Parser.check kind >>= f) (Parser.check kind >>= f') s E :=
  Carries.look (fun s => s.startsWith kind) f f'
    (fun _ _ hs' => hs'.startsWith_of_not_opens hus hkind) h

theorem carries_takeToken (hrest : C → s.rest ≠ []) (hfits : C → s.Fits us) :
    Carries us Going C takeToken takeToken s fun t s₁ =>
      s₁.Behind us t ∧ t = s.next ∧ s₁ = s.advance := by
  refine .of_ok rfl s.leads_advance.reports (fun hc => ⟨?_, rfl, rfl⟩) fun hc _ s' hs' => ?_
  · obtain ⟨t, rest, htokens⟩ := List.exists_cons_of_ne_nil (hrest hc)
    rw [State.next_of_rest htokens]
    exact (hfits hc).behind htokens
  · refine ⟨s'.advance, ?_, hs'.advance (.inl (hrest hc))⟩
    rw [takeToken, hs'.next (hrest hc)]

/-- The same where the kind of the next token is known. -/
theorem carries_takeToken_of_kind {kind : Kind} (hkind : s.next.kind = kind)
    (hne : kind ≠ .endOfInput) (hfits : C → s.Fits us) :
    Carries us Going C takeToken takeToken s fun t s₁ => s₁.Behind us t ∧ t.kind = kind := by
  refine (carries_takeToken (fun hc => ?_) hfits).mono id ?_
  · obtain ⟨t, rest, hrest, -⟩ := State.exists_rest_of_next (hfits hc).proper (hkind ▸ hne)
    rw [hrest]
    exact List.cons_ne_nil _ _
  · rintro t s₁ - ⟨ht, rfl, -⟩
    exact ⟨ht, hkind⟩

theorem State.rest_ne_nil_of_startsWith {kind : Kind} (h : s.startsWith kind = true) :
    s.rest ≠ [] := by
  intro hrest
  rw [State.startsWith, hrest] at h
  cases h

theorem carries_expect (kind : Kind) (cause : Cause) (hfits : C → s.Fits us) :
    Carries us Going C (expect kind cause) (expect kind cause) s fun t s₁ =>
      s₁.Behind us t ∧ t.kind = kind := by
  by_cases hstarts : s.startsWith kind = true
  · have hrest := State.rest_ne_nil_of_startsWith hstarts
    refine .of_ok (if_pos hstarts) s.leads_advance.reports (fun hc => ?_) fun hc _ s' hs' => ?_
    · obtain ⟨t, rest, htokens, hkind⟩ := State.exists_rest_of_startsWith hstarts
      rw [State.next_of_rest htokens]
      exact ⟨(hfits hc).behind htokens, hkind⟩
    · refine ⟨s'.advance, ?_, hs'.advance (.inl hrest)⟩
      rw [expect, if_pos (by rw [hs'.startsWith (.inl hrest), hstarts]), hs'.next hrest]
  · exact .of_error (if_neg hstarts) (Nat.le_refl _)

/-- What is left in front of a token that has to be there. -/
theorem rest_ne_nil_of_expect {kind : Kind} {cause : Cause} {f : Token → Rule β} {b : β}
    {s₁ : State} (h : (expect kind cause >>= f) s = .ok b s₁) : s.rest ≠ [] := by
  intro hrest
  have hstarts : s.startsWith kind = false := by rw [State.startsWith, hrest]; rfl
  have hrun : expect kind cause s = fail cause s := if_neg (Bool.eq_false_iff.mp hstarts)
  simp only [Bind.bind, EStateM.bind, hrun, fail, reduceCtorEq] at h

theorem carries_accept (hus : Declares us) (kind : Kind)
    (hseen : C → kind.opensDeclaration = false ∨ s.Sees us) (hfits : C → s.Fits us) :
    Carries us Going C (accept kind) (accept kind) s fun taken s₁ =>
      match taken with
      | true => ∃ t, s₁.Behind us t ∧ t.kind = kind
      | false => s₁ = s ∧ C := by
  have hsame : C → ∀ s', s.Joined us s' → s'.startsWith kind = s.startsWith kind := by
    intro hc s' hs'
    rcases hseen hc with hkind | hsees
    · exact hs'.startsWith_of_not_opens hus hkind
    · exact hs'.startsWith hsees kind
  by_cases hstarts : s.startsWith kind = true
  · have hrest := State.rest_ne_nil_of_startsWith hstarts
    refine .of_ok (if_pos hstarts) s.leads_advance.reports (fun hc => ?_) fun hc _ s' hs' => ?_
    · obtain ⟨t, rest, htokens, hkind⟩ := State.exists_rest_of_startsWith hstarts
      exact ⟨t, (hfits hc).behind htokens, hkind⟩
    · exact ⟨s'.advance, if_pos ((hsame hc s' hs').trans hstarts), hs'.advance (.inl hrest)⟩
  · refine .of_ok (if_neg hstarts) (Nat.le_refl _) (fun hc => ⟨rfl, hc⟩) fun hc _ s' hs' => ?_
    exact ⟨s', if_neg (by rwa [hsame hc s' hs']), hs'⟩

theorem carries_accept_begun (hus : Declares us) (kind : Kind)
    (hkind : kind.opensDeclaration = false) (hbegun : C → s.Begun us) :
    Carries us Going C (accept kind) (accept kind) s fun _ s₁ => s₁.Begun us := by
  refine (carries_accept hus kind (fun _ => .inl hkind) fun hc => (hbegun hc).toFits).mono id
    fun taken s₁ hc hpost => ?_
  cases taken with
  | true =>
    obtain ⟨t, ht, -⟩ := hpost
    exact ht.toBegun
  | false =>
    obtain ⟨rfl, -⟩ := hpost
    exact hbegun hc

theorem acceptToken?_eq (among : Kind → Bool) (s : State) :
    acceptToken? among s =
      if s.rest.head?.any (fun t => among t.kind) then .ok (some s.next) s.advance
      else .ok none s := by
  unfold acceptToken?
  cases hrest : s.rest with
  | nil => rfl
  | cons t rest =>
    rw [State.next_of_rest hrest]
    rfl

theorem carries_acceptToken? (hus : Declares us) (among : Kind → Bool)
    (hseen : C → (∀ k : Kind, k.opensDeclaration = true → among k = false) ∨ s.Sees us)
    (hfits : C → s.Fits us) :
    Carries us Going C (acceptToken? among) (acceptToken? among) s fun taken? s₁ =>
      match taken? with
      | some t => s₁.Behind us t ∧ among t.kind = true
      | none => s₁ = s ∧ C := by
  have hsame : C → ∀ s', s.Joined us s' → s'.rest.head?.any (fun t => among t.kind) =
      s.rest.head?.any fun t => among t.kind := by
    intro hc s' hs'
    by_cases hsees : s.Sees us
    · rw [hs'.head? hsees]
    · have hkinds := (hseen hc).resolve_right hsees
      have hrest : s.rest = [] := Decidable.not_not.mp fun hne => hsees (.inl hne)
      rw [hs'.rest, hrest, List.nil_append]
      cases hhead : us.head? with
      | none => rfl
      | some t => simp [hkinds t.kind (hus t hhead)]
  by_cases htakes : s.rest.head?.any (fun t => among t.kind) = true
  · have hrest : s.rest ≠ [] := by
      intro hrest
      rw [hrest] at htakes
      cases htakes
    refine .of_ok ((acceptToken?_eq among s).trans (if_pos htakes)) s.leads_advance.reports
      (fun hc => ?_) fun hc _ s' hs' => ⟨s'.advance, ?_, hs'.advance (.inl hrest)⟩
    · obtain ⟨t, rest, htokens⟩ := List.exists_cons_of_ne_nil hrest
      rw [State.next_of_rest htokens]
      refine ⟨(hfits hc).behind htokens, ?_⟩
      simpa [htokens] using htakes
    · rw [acceptToken?_eq, if_pos ((hsame hc s' hs').trans htakes), hs'.next hrest]
  · refine .of_ok ((acceptToken?_eq among s).trans (if_neg htakes)) (Nat.le_refl _)
      (fun hc => ⟨rfl, hc⟩) fun hc _ s' hs' => ⟨s', ?_, hs'⟩
    rw [acceptToken?_eq, if_neg (by rwa [hsame hc s' hs'])]

theorem carries_complain (t : Token) (cause : Cause) {other : Rule Unit} {D : Unit → State → Prop} :
    Carries us Going C (complain t cause) other s D := by
  refine .never (s.leads_report _).reports ?_
  rintro - _ _ ⟨⟩
  simp [State.report]

theorem carries_complainNext (cause : Cause) {other : Rule Unit} {D : Unit → State → Prop} :
    Carries us Going C (complainNext cause) other s D := by
  refine .never (s.leads_report _).reports ?_
  rintro - _ _ ⟨⟩
  simp [State.report]

theorem carries_freshId :
    Carries us Going C freshId freshId s fun _ s₁ =>
      s₁ = { s with nextId := s.nextId + 1 } ∧ C := by
  refine .of_ok rfl (Nat.le_refl _) (fun hc => ⟨rfl, hc⟩) fun hc _ s' hs' => ?_
  refine ⟨{ s' with nextId := s'.nextId + 1 }, ?_, hs'.rest, hs'.ending, hs'.last, hs'.loops,
    congrArg (· + 1) hs'.nextId, hs'.reports⟩
  rw [freshId, hs'.nextId]

theorem carries_withLoops {loops : Nat → Nat}
    (h : Carries us always C rule rule' { s with loops := loops s.loops } fun a s₁ =>
      D a { s₁ with loops := s.loops }) :
    Carries us Going C (withLoops loops rule) (withLoops loops rule') s D := by
  have hgrows := h.grows
  cases hrule : rule { s with loops := loops s.loops } with
  | error e s₁ =>
    rw [hrule] at hgrows
    have hrun : withLoops loops rule s = .error e { s₁ with loops := s.loops } := by
      rw [withLoops, hrule]
    exact .of_error hrun hgrows
  | ok a s₁ =>
    rw [hrule] at hgrows
    have hrun : withLoops loops rule s = .ok a { s₁ with loops := s.loops } := by
      rw [withLoops, hrule]
    constructor
    · rw [hrun]
      exact hgrows
    · intro hc b s₂ hrun' hquiet
      cases hrun.symm.trans hrun'
      obtain ⟨hpost, hjoined⟩ := h.carries hc a s₁ hrule hquiet
      refine ⟨hpost, fun _ s' hs' => ?_⟩
      obtain ⟨s₁', hrule', hs₁'⟩ := hjoined trivial { s' with loops := loops s'.loops }
        ⟨hs'.rest, hs'.ending, hs'.last, congrArg loops hs'.loops, hs'.nextId, hs'.reports⟩
      refine ⟨{ s₁' with loops := s'.loops }, ?_, hs₁'.rest, hs₁'.ending, hs₁'.last, hs'.loops,
        hs₁'.nextId, hs₁'.reports⟩
      rw [withLoops, hrule']

theorem carries_withLoops_begun {loops : Nat → Nat} (hfits : C → s.Fits us)
    (h : ∀ s : State, (C → s.Fits us) → Carries us always C rule rule' s fun _ s₁ => s₁.Begun us) :
    Carries us always C (withLoops loops rule) (withLoops loops rule') s fun _ s₁ => s₁.Begun us :=
  carries_withLoops ((h _ fun hc => (hfits hc).inLoops _).mono id fun _ _ _ hpost =>
    hpost.inLoops _)

/-- Where a complaint is the end of it, recovery is the rule itself. -/
theorem carries_recover (h : Carries us always C rule rule' s D) :
    Carries us Going C (recover rule) (recover rule') s fun taken? s₁ =>
      ∃ a, taken? = some a ∧ D a s₁ := by
  have hgrows := h.grows
  cases hrule : rule s with
  | ok a s₁ =>
    rw [hrule] at hgrows
    have hrun : recover rule s = .ok (some a) s₁ := by rw [recover, hrule]
    constructor
    · rw [hrun]
      exact hgrows
    · intro hc b s₂ hrun' hquiet
      cases hrun.symm.trans hrun'
      obtain ⟨hpost, hjoined⟩ := h.carries hc a s₁ hrule hquiet
      refine ⟨⟨a, rfl, hpost⟩, fun _ s' hs' => ?_⟩
      obtain ⟨s₁', hrule', hs₁'⟩ := hjoined trivial s' hs'
      exact ⟨s₁', by rw [recover, hrule'], hs₁'⟩
  | error e s₁ =>
    rw [hrule] at hgrows
    cases e with
    | outOfFuel =>
      have hrun : recover rule s = .error .outOfFuel s₁ := by rw [recover, hrule]
      exact .of_error hrun hgrows
    | fault r =>
      have hrun : recover rule s = .ok none (s₁.report r).synchronize := by rw [recover, hrule]
      have hsize : (s₁.report r).synchronize.reports.size = s₁.reports.size + 1 := by
        unfold State.synchronize
        split <;> simp [State.report]
      refine .never ?_ fun _ b s₂ hrun' => ?_
      · rw [hrun]
        exact Nat.le_trans hgrows (hsize ▸ Nat.le_succ _)
      · cases hrun.symm.trans hrun'
        rw [hsize]
        exact Nat.succ_ne_zero _

/-- The end of a statement is the same if something was read: the token that was read last is the
same then. -/
theorem carries_terminate (hus : Declares us) (value? : Option Expr) (cause : Cause)
    (hbegun : C → s.Begun us) :
    Carries us Going C (terminate value? cause) (terminate value? cause) s fun _ s₁ =>
      s₁.Begun us := by
  let behind (taken : Bool) : Rule Unit := do
    if taken then return ()
    else if value?.any Expr.isLambda then
      let _ ← accept .semicolon
    else
      let _ ← expect .semicolon cause
  refine Carries.look (fun s => s.last.any (·.kind = .semicolon)) behind behind
    (fun hc s' hs' => ?_) ?_
  · rw [hs'.last.resolve_left (hbegun hc).begun]
  · unfold behind
    split
    · exact .pure hbegun
    · split
      · exact (carries_accept_begun hus .semicolon rfl hbegun).bind fun _ _ => .pure id
      · refine (carries_expect .semicolon cause fun hc => (hbegun hc).toFits).bind fun t s₁ => ?_
        exact .pure fun hpost => hpost.1.toBegun

end Carries

/-! ### Rules without a circle -/

section Lists

variable {us : List Token} {C : Prop} {s : State}

theorem carries_parameterList (hus : Declares us) {n m : Nat} (hnm : n ≤ m) (count : Nat)
    (hfits : C → s.Fits us) :
    Carries us always C (parameterList n count) (parameterList m count) s fun _ s₁ =>
      s₁.Begun us := by
  induction n generalizing m count C s with
  | zero => exact carries_throw _
  | succ n ih =>
    obtain ⟨m, rfl⟩ : ∃ k, m = k + 1 := ⟨m - 1, by omega⟩
    unfold parameterList
    have hlist : ∀ {C : Prop} (s : State), (C → s.Fits us) → Carries us always C
        (do
          let name ← expect .identifier .expectedParameterName
          if ← accept .comma then
            let names ← parameterList n (count + 1)
            return name :: names
          else return [name])
        (do
          let name ← expect .identifier .expectedParameterName
          if ← accept .comma then
            let names ← parameterList m (count + 1)
            return name :: names
          else return [name]) s fun _ s₁ => s₁.Begun us := by
      intro C s hfits
      refine (carries_expect _ _ hfits).bind fun name s₁ => ?_
      refine (carries_accept hus _ (fun _ => .inl rfl) fun h => h.1.toFits).bind fun taken s₂ => ?_
      cases taken with
      | true =>
        refine (ih (Nat.le_of_succ_le_succ hnm) (count + 1) ?_).bind fun names s₃ => .pure id
        rintro ⟨comma, hcomma, -⟩
        exact hcomma.toFits
      | false =>
        refine .pure ?_
        rintro ⟨rfl, hname, -⟩
        exact hname.toBegun
    split
    · exact (carries_complainNext _ (D := fun _ _ => False)).bind fun _ s₁ => hlist s₁ False.elim
    · exact hlist s hfits

theorem carries_parameters (hus : Declares us) {n m : Nat} (hnm : n ≤ m) (hfits : C → s.Fits us) :
    Carries us always C (parameters n) (parameters m) s fun _ s₁ => s₁.Fits us := by
  unfold parameters
  refine .check hus rfl ?_
  split
  · exact .pure hfits
  · exact (carries_parameterList hus hnm 0 hfits).mono id fun _ _ _ h => h.toFits

theorem carries_countingStep (hus : Declares us) (hfits : C → s.Fits us)
    (hstep : C → s.startsStep = true) :
    Carries us always C countingStep countingStep s fun _ s₁ => s₁.Begun us := by
  have hrests : C → s.rest ≠ [] ∧ s.advance.rest ≠ [] := by
    intro hc
    have hstarts := hstep hc
    unfold State.startsStep at hstarts
    split at hstarts
    · next name step rest hrest =>
      rw [State.rest_advance hrest, hrest]
      exact ⟨List.cons_ne_nil _ _, List.cons_ne_nil _ _⟩
    · cases hstarts
  have hfirst : Carries us always C takeToken takeToken s fun _ s₁ =>
      s₁.Fits us ∧ s₁.rest ≠ [] := by
    refine (carries_takeToken (fun hc => (hrests hc).1) hfits).mono id ?_
    rintro name s₁ hc ⟨hname, -, rfl⟩
    exact ⟨hname.toFits, (hrests hc).2⟩
  have hfresh : ∀ {C : Prop} (s : State), (C → s.Begun us) →
      Carries us always C freshId freshId s fun _ s₁ => s₁.Begun us := by
    intro C s hbegun
    refine carries_freshId.mono id ?_
    rintro id s₁ hc ⟨rfl, -⟩
    exact (hbegun hc).numbered _
  unfold countingStep
  refine hfirst.bind fun name s₁ => ?_
  refine (carries_takeToken And.right And.left).bind fun step s₂ => ?_
  refine (carries_accept_begun hus _ rfl fun h => h.1.toBegun).bind fun _ s₃ => ?_
  exact (hfresh s₃ id).bind fun readId s₄ => (hfresh s₄ id).bind fun assignId s₅ => .pure id

/-- Behind a token that closes nothing. -/
theorem ahead_of_behind {t : Token} {kind : Kind} (h : s.Behind us t ∧ t.kind = kind)
    (hkind : closes kind = false) : s.Ahead us := h.1.toAhead (by rw [h.2]; exact hkind)

/-- A rule that starts with a token gives nothing where none is left. -/
theorem ne_zero_of_meets {α : Type} {rule : Rule α} {Post : List Token → α → State → Prop}
    (h : Meets rule s Post) (hpost : ∀ read a s₁, Post read a s₁ → read ≠ []) (hrest : s.rest = [])
    (a : α) (s₁ : State) (hrun : rule s = .ok a s₁) : s₁.reports.size ≠ 0 := by
  intro hquiet
  obtain ⟨read, hread, hp⟩ := h.reads hrun hquiet
  have hnil := hread.rest
  rw [hrest] at hnil
  exact hpost read a s₁ hp (List.append_eq_nil_iff.mp hnil.symm).1

theorem carries_loopExit (keyword : Token) (cause : Cause)
    (build : Token → Stmt) (hbegun : C → s.Begun us) :
    Carries us always C (loopExit keyword cause build) (loopExit keyword cause build) s fun _ s₁ =>
      s₁.Begun us := by
  have hend : ∀ {C : Prop} (s : State), (C → s.Fits us) → Carries us always C
      (do let _ ← expect .semicolon .expectedExitEnd; return build keyword)
      (do let _ ← expect .semicolon .expectedExitEnd; return build keyword) s fun _ s₁ =>
        s₁.Begun us := fun s hfits =>
    (carries_expect _ _ hfits).bind fun _ _ => .pure fun h => h.1.toBegun
  let exit (loops : Nat) : Rule Stmt := do
    if loops = 0 then complain keyword cause
    let _ ← expect .semicolon .expectedExitEnd
    return build keyword
  refine Carries.look State.loops exit exit (fun _ s' hs' => hs'.loops) ?_
  unfold exit
  split
  · exact (carries_complain _ _ (D := fun _ _ => False)).bind fun _ s₁ => hend s₁ False.elim
  · exact hend s fun hc => (hbegun hc).toFits

end Lists

/-! ### The rules of the grammar -/

/-- With this much fuel the rules carry on, if the others have as much. -/
structure RulesCarry (us : List Token) (n m : Nat) : Prop where
  declarations : ∀ {C : Prop} inBlock s, (C → s.Fits us) → Carries us (State.Sees us) C
    (declarations n inBlock) (declarations m inBlock) s fun _ s₁ => s₁.Fits us
  declaration : ∀ {C : Prop} s, (C → s.Fits us) → (C → s.Sees us) →
    Carries us always C (declaration n) (declaration m) s fun _ s₁ => s₁.Begun us
  methodList : ∀ {C : Prop} s, (C → s.Fits us) → Carries us (State.Sees us) C (methodList n)
    (methodList m) s fun _ s₁ => s₁.Fits us
  functionRest : ∀ {C : Prop} name s, (C → s.Fits us) →
    Carries us always C (functionRest n name) (functionRest m name) s fun _ s₁ => s₁.Begun us
  variableRest : ∀ {C : Prop} s, (C → s.Fits us) →
    Carries us always C (variableRest n) (variableRest m) s fun _ s₁ => s₁.Begun us
  block : ∀ {C : Prop} s, (C → s.Fits us) →
    Carries us always C (block n) (block m) s fun _ s₁ => s₁.Begun us
  statement : ∀ {C : Prop} s, (C → s.Fits us) →
    Carries us always C (statement n) (statement m) s fun _ s₁ => s₁.Begun us
  expressionStatement : ∀ {C : Prop} s, (C → s.Fits us) →
    Carries us always C (expressionStatement n) (expressionStatement m) s fun _ s₁ => s₁.Begun us
  countedLoop : ∀ {C : Prop} s, (C → s.Fits us) →
    Carries us always C (countedLoop n) (countedLoop m) s fun _ s₁ => s₁.Begun us
  loopStart : ∀ {C : Prop} s, (C → s.Fits us) →
    Carries us always C (loopStart n) (loopStart m) s fun _ s₁ => s₁.Begun us
  optionalExpression : ∀ {C : Prop} closing s, closing.opensDeclaration = false → (C → s.Fits us) →
    Carries us always C (optionalExpression n closing) (optionalExpression m closing) s fun _ s₁ =>
      s₁.Fits us
  expression : ∀ {C : Prop} s, (C → s.Fits us) →
    Carries us always C (expression n) (expression m) s fun _ s₁ => s₁.Begun us
  lambda : ∀ {C : Prop} s, (C → s.Fits us) → (C → s.startsLambda = true) →
    Carries us always C (lambda n) (lambda m) s fun _ s₁ => s₁.Begun us
  assignment : ∀ {C : Prop} s, (C → s.Fits us) →
    Carries us always C (assignment n) (assignment m) s fun _ s₁ => s₁.Begun us
  conditional : ∀ {C : Prop} s, (C → s.Fits us) →
    Carries us always C (conditional n) (conditional m) s fun _ s₁ => s₁.Begun us
  level : ∀ {C : Prop} l s, (C → s.Fits us) →
    Carries us always C (level n l) (level m l) s fun _ s₁ => s₁.Ahead us
  levelRest : ∀ {C : Prop} l left s, (C → s.Ahead us) →
    Carries us always C (levelRest n l left) (levelRest m l left) s fun _ s₁ => s₁.Ahead us
  operand : ∀ {C : Prop} l s, (C → s.Fits us) →
    Carries us always C (operand n l) (operand m l) s fun _ s₁ => s₁.Ahead us
  unary : ∀ {C : Prop} s, (C → s.Fits us) →
    Carries us always C (unary n) (unary m) s fun _ s₁ => s₁.Ahead us
  suffixes : ∀ {C : Prop} value s, (C → s.Ahead us) →
    Carries us always C (suffixes n value) (suffixes m value) s fun _ s₁ => s₁.Ahead us
  expressions : ∀ {C : Prop} closing limited s, closing.opensDeclaration = false → (C → s.Fits us) →
    Carries us always C (expressions n closing limited) (expressions m closing limited) s
      fun _ s₁ => s₁.Fits us
  expressionList : ∀ {C : Prop} limited count s, (C → s.Fits us) →
    Carries us always C (expressionList n limited count) (expressionList m limited count) s
      fun _ s₁ => s₁.Begun us
  primary : ∀ {C : Prop} s, (C → s.Fits us) → (C → s.Sees us) →
    Carries us always C (primary n) (primary m) s fun _ s₁ => s₁.Ahead us

theorem rulesCarry_zero (us : List Token) (m : Nat) : RulesCarry us 0 m where
  declarations _ _ _ := carries_throw _
  declaration _ _ _ := carries_throw _
  methodList _ _ := carries_throw _
  functionRest _ _ _ := carries_throw _
  variableRest _ _ := carries_throw _
  block _ _ := carries_throw _
  statement _ _ := carries_throw _
  expressionStatement _ _ := carries_throw _
  countedLoop _ _ := carries_throw _
  loopStart _ _ := carries_throw _
  optionalExpression _ _ _ _ := carries_throw _
  expression _ _ := carries_throw _
  lambda _ _ _ := carries_throw _
  assignment _ _ := carries_throw _
  conditional _ _ := carries_throw _
  level _ _ _ := carries_throw _
  levelRest _ _ _ _ := carries_throw _
  operand _ _ _ := carries_throw _
  unary _ _ := carries_throw _
  suffixes _ _ _ := carries_throw _
  expressions _ _ _ _ _ := carries_throw _
  expressionList _ _ _ _ := carries_throw _
  primary _ _ _ := carries_throw _

namespace RulesCarry

variable {us : List Token} {n m : Nat} (h : RulesCarry us n m) {C : Prop}

include h

theorem declarations_succ (hus : Declares us) (inBlock : Bool) (s : State) (hfits : C → s.Fits us) :
    Carries us (State.Sees us) C (Parser.declarations (n + 1) inBlock)
      (Parser.declarations (m + 1) inBlock) s fun _ s₁ => s₁.Fits us := by
  unfold Parser.declarations
  refine .unlessAtEnd rfl rfl hfits fun hrest => .check hus rfl ?_
  split
  · exact .pure hfits
  · refine (carries_recover (h.declaration s hfits fun _ => .inl hrest)).bind fun first? s₁ => ?_
    refine (h.declarations inBlock s₁ ?_).bind_of (fun _ _ => .pure id) ?_
    · rintro ⟨first, -, hfirst⟩
      exact hfirst.toFits
    · rintro others s₂ _ _ ⟨⟩ hsees
      exact hsees

theorem declaration_succ (s : State) (hfits : C → s.Fits us) (hsees : C → s.Sees us) :
    Carries us always C (Parser.declaration (n + 1)) (Parser.declaration (m + 1)) s fun _ s₁ =>
      s₁.Begun us := by
  unfold Parser.declaration
  refine .peek hsees ?_
  generalize hkind : s.next.kind = kind
  cases kind with
  | classKw =>
    refine (carries_takeToken_of_kind hkind Kind.noConfusion hfits).bind fun _ s₁ => ?_
    refine (carries_expect _ _ fun h => h.1.toFits).bind fun name s₂ => ?_
    refine (carries_expect _ _ fun h => h.1.toFits).bind fun _ s₃ => ?_
    -- the methods end in front of a brace, or else the brace is missed
    refine (h.methodList s₃ fun h => h.1.toFits).bind_of (fun methods s₄ => ?_)
      fun _ _ _ _ hrun _ => .inl (rest_ne_nil_of_expect hrun)
    exact (carries_expect _ _ id).bind fun _ _ => .pure fun h => h.1.toBegun
  | functionKw =>
    refine (carries_takeToken_of_kind hkind Kind.noConfusion hfits).bind fun _ s₁ => ?_
    refine (carries_expect _ _ fun h => h.1.toFits).bind fun name s₂ => ?_
    exact (h.functionRest name s₂ fun h => h.1.toFits).bind fun _ _ => .pure id
  | varKw =>
    exact (carries_takeToken_of_kind hkind Kind.noConfusion hfits).bind fun _ s₁ =>
      h.variableRest s₁ fun h => h.1.toFits
  | _ => exact h.statement s hfits

theorem methodList_succ (hus : Declares us) (s : State) (hfits : C → s.Fits us) :
    Carries us (State.Sees us) C (Parser.methodList (n + 1)) (Parser.methodList (m + 1)) s
      fun _ s₁ => s₁.Fits us := by
  unfold Parser.methodList
  refine .unlessAtEnd rfl rfl hfits fun hrest => .check hus rfl ?_
  split
  · exact .pure hfits
  · refine (carries_accept hus _ (fun _ => .inr (.inl hrest)) hfits).bind fun taken s₁ => ?_
    have hfits₁ : (match taken with
        | true => ∃ t, s₁.Behind us t ∧ t.kind = .functionKw
        | false => s₁ = s ∧ C) → s₁.Fits us := by
      intro hpost
      cases taken with
      | true =>
        obtain ⟨t, ht, -⟩ := hpost
        exact ht.toFits
      | false =>
        obtain ⟨rfl, hc⟩ := hpost
        exact hfits hc
    refine (carries_expect _ _ hfits₁).bind fun name s₂ => ?_
    refine (h.functionRest name s₂ fun h => h.1.toFits).bind fun method s₃ => ?_
    refine (h.methodList s₃ fun h => h.toFits).bind_of (fun _ _ => .pure id) ?_
    rintro others s₄ _ _ ⟨⟩ hsees
    exact hsees

theorem functionRest_succ (hus : Declares us) (hnm : n ≤ m) (name : Token) (s : State)
    (hfits : C → s.Fits us) :
    Carries us always C (Parser.functionRest (n + 1) name) (Parser.functionRest (m + 1) name) s
      fun _ s₁ => s₁.Begun us := by
  unfold Parser.functionRest
  refine (carries_expect _ _ hfits).bind fun _ s₁ => ?_
  refine (carries_parameters hus hnm fun h => h.1.toFits).bind fun params s₂ => ?_
  refine (carries_expect _ _ id).bind fun _ s₃ => ?_
  refine (carries_expect _ _ fun h => h.1.toFits).bind fun _ s₄ => ?_
  exact (carries_withLoops_begun (fun h => h.1.toFits) h.block).bind fun _ _ => .pure id

theorem variableRest_succ (hus : Declares us) (s : State) (hfits : C → s.Fits us) :
    Carries us always C (Parser.variableRest (n + 1)) (Parser.variableRest (m + 1)) s fun _ s₁ =>
      s₁.Begun us := by
  unfold Parser.variableRest
  refine (carries_expect _ _ hfits).bind fun name s₁ => ?_
  refine (carries_accept_begun hus _ rfl fun h => h.1.toBegun).bind fun taken s₂ => ?_
  split
  · refine (h.expression s₂ fun h => h.toFits).bind fun value s₃ => ?_
    exact (carries_terminate hus _ _ id).bind fun _ _ => .pure id
  · exact (carries_terminate hus _ _ id).bind fun _ _ => .pure id

theorem block_succ (s : State) (hfits : C → s.Fits us) :
    Carries us always C (Parser.block (n + 1)) (Parser.block (m + 1)) s fun _ s₁ =>
      s₁.Begun us := by
  unfold Parser.block
  refine (h.declarations true s hfits).bind_of (fun body s₁ => ?_)
    fun _ _ _ _ hrun _ => .inl (rest_ne_nil_of_expect hrun)
  exact (carries_expect _ _ id).bind fun _ _ => .pure fun h => h.1.toBegun

theorem statement_succ (hus : Declares us) (s : State) (hfits : C → s.Fits us) :
    Carries us always C (Parser.statement (n + 1)) (Parser.statement (m + 1)) s fun _ s₁ =>
      s₁.Begun us := by
  refine .of_sees ?_ fun hc hrest => ?_
  · unfold Parser.statement
    refine .peek And.right ?_
    have hfits' : C ∧ s.Sees us → s.Fits us := fun hc => hfits hc.1
    generalize hkind : s.next.kind = kind
    cases kind with
    | printKw =>
      refine (carries_takeToken_of_kind hkind Kind.noConfusion hfits').bind fun _ s₁ => ?_
      refine (h.expression s₁ fun h => h.1.toFits).bind fun value s₂ => ?_
      exact (carries_terminate hus _ _ id).bind fun _ _ => .pure id
    | ifKw =>
      refine (carries_takeToken_of_kind hkind Kind.noConfusion hfits').bind fun _ s₁ => ?_
      refine (carries_expect _ _ fun h => h.1.toFits).bind fun _ s₂ => ?_
      refine (h.expression s₂ fun h => h.1.toFits).bind fun test s₃ => ?_
      refine (carries_expect _ _ fun h => h.toFits).bind fun _ s₄ => ?_
      refine (h.statement s₄ fun h => h.1.toFits).bind fun yes s₅ => ?_
      refine (carries_accept_begun hus _ rfl id).bind fun taken s₆ => ?_
      split
      · exact (h.statement s₆ fun h => h.toFits).bind fun _ _ => .pure id
      · exact .pure id
    | leftBrace =>
      refine (carries_takeToken_of_kind hkind Kind.noConfusion hfits').bind fun _ s₁ => ?_
      exact (h.block s₁ fun h => h.1.toFits).bind fun _ _ => .pure id
    | whileKw =>
      refine (carries_takeToken_of_kind hkind Kind.noConfusion hfits').bind fun _ s₁ => ?_
      refine (carries_expect _ _ fun h => h.1.toFits).bind fun _ s₂ => ?_
      refine (h.expression s₂ fun h => h.1.toFits).bind fun test s₃ => ?_
      refine (carries_expect _ _ fun h => h.toFits).bind fun _ s₄ => ?_
      exact (carries_withLoops_begun (fun h => h.1.toFits) h.statement).bind fun _ _ => .pure id
    | forKw =>
      exact (carries_takeToken_of_kind hkind Kind.noConfusion hfits').bind fun _ s₁ =>
        h.countedLoop s₁ fun h => h.1.toFits
    | breakKw =>
      exact (carries_takeToken_of_kind hkind Kind.noConfusion hfits').bind fun keyword s₁ =>
        carries_loopExit keyword _ _ fun h => h.1.toBegun
    | continueKw =>
      exact (carries_takeToken_of_kind hkind Kind.noConfusion hfits').bind fun keyword s₁ =>
        carries_loopExit keyword _ _ fun h => h.1.toBegun
    | returnKw =>
      refine (carries_takeToken_of_kind hkind Kind.noConfusion hfits').bind fun keyword s₁ => ?_
      refine .check hus rfl ?_
      split
      · exact (carries_terminate hus _ _ fun h => h.1.toBegun).bind fun _ _ => .pure id
      · refine (h.expression s₁ fun h => h.1.toFits).bind fun value s₂ => ?_
        exact (carries_terminate hus _ _ id).bind fun _ _ => .pure id
    | _ => exact h.expressionStatement s hfits'
  · have hmeets := (rulesBuild (n + 1)).statement s (hfits hc).proper
    exact ne_zero_of_meets hmeets
      (fun _ _ _ hpost => (hpost false Bool.noConfusion).derives.statement_ne_nil) hrest

theorem expressionStatement_succ (hus : Declares us) (s : State) (hfits : C → s.Fits us) :
    Carries us always C (Parser.expressionStatement (n + 1)) (Parser.expressionStatement (m + 1)) s
      fun _ s₁ => s₁.Begun us := by
  unfold Parser.expressionStatement
  refine (h.expression s hfits).bind fun value s₁ => ?_
  exact (carries_terminate hus _ _ id).bind fun _ _ => .pure id

theorem countedLoop_succ (s : State) (hfits : C → s.Fits us) :
    Carries us always C (Parser.countedLoop (n + 1)) (Parser.countedLoop (m + 1)) s fun _ s₁ =>
      s₁.Begun us := by
  unfold Parser.countedLoop
  refine (carries_expect _ _ hfits).bind fun _ s₁ => ?_
  refine (h.loopStart s₁ fun h => h.1.toFits).bind fun start s₂ => ?_
  refine (h.optionalExpression _ s₂ rfl fun h => h.toFits).bind fun test s₃ => ?_
  refine (carries_expect _ _ id).bind fun _ s₄ => ?_
  refine (h.optionalExpression _ s₄ rfl fun h => h.1.toFits).bind fun step s₅ => ?_
  refine (carries_expect _ _ id).bind fun _ s₆ => ?_
  exact (carries_withLoops_begun (fun h => h.1.toFits) h.statement).bind fun _ _ => .pure id

theorem loopStart_succ (hus : Declares us) (s : State) (hfits : C → s.Fits us) :
    Carries us always C (Parser.loopStart (n + 1)) (Parser.loopStart (m + 1)) s fun _ s₁ =>
      s₁.Begun us := by
  refine .of_sees ?_ fun hc hrest => ?_
  · unfold Parser.loopStart
    refine (carries_accept hus _ (fun _ => .inl rfl) fun hc => hfits hc.1).bind fun taken s₁ => ?_
    cases taken with
    | true =>
      refine .pure ?_
      rintro ⟨t, ht, -⟩
      exact ht.toBegun
    | false =>
      refine (carries_accept hus _ (fun hc => .inr (hc.1 ▸ hc.2.2))
        fun hc => hc.1 ▸ hfits hc.2.1).bind fun taken s₂ => ?_
      cases taken with
      | true =>
        refine .map (h.variableRest s₂ ?_)
        rintro ⟨t, ht, -⟩
        exact ht.toFits
      | false =>
        refine .map (h.expressionStatement s₂ ?_)
        rintro ⟨rfl, rfl, hc⟩
        exact hfits hc.1
  · have hmeets := (rulesBuild (n + 1)).loopStart s (hfits hc).proper
    exact ne_zero_of_meets hmeets (fun _ _ _ hpost => hpost.derives.loopStart_ne_nil) hrest

theorem optionalExpression_succ (hus : Declares us) (closing : Kind) (s : State)
    (hclosing : closing.opensDeclaration = false) (hfits : C → s.Fits us) :
    Carries us always C (Parser.optionalExpression (n + 1) closing)
      (Parser.optionalExpression (m + 1) closing) s fun _ s₁ => s₁.Fits us := by
  unfold Parser.optionalExpression
  refine .check hus hclosing ?_
  split
  · exact .pure hfits
  · exact .map ((h.expression s hfits).mono id fun _ _ _ h => h.toFits)

theorem expression_succ (hus : Declares us) (s : State) (hfits : C → s.Fits us) :
    Carries us always C (Parser.expression (n + 1)) (Parser.expression (m + 1)) s fun _ s₁ =>
      s₁.Begun us := by
  refine .of_sees ?_ fun hc hrest => ?_
  · let choice (lambda assignment : Rule Expr) (starts : Bool × Bool) : Rule Expr :=
      if starts.1 then countingStep else if starts.2 then lambda else assignment
    have hfits' : C ∧ s.Sees us → s.Fits us := fun hc => hfits hc.1
    unfold Parser.expression
    refine Carries.look (fun s => (s.startsStep, s.startsLambda))
      (choice (Parser.lambda n) (Parser.assignment n))
      (choice (Parser.lambda m) (Parser.assignment m))
      (fun hc s' hs' => ?_) ?_
    · rw [hs'.startsStep (hfits hc.1) hc.2, hs'.startsLambda (hfits hc.1) hc.2]
    · unfold choice
      split
      · next hstep => exact carries_countingStep hus hfits' fun _ => hstep
      · split
        · next hlambda => exact h.lambda s hfits' fun _ => hlambda
        · exact h.assignment s hfits'
  · have hmeets := (rulesBuild (n + 1)).expression s (hfits hc).proper
    exact ne_zero_of_meets hmeets (fun _ _ _ hpost => hpost.derives.expression_ne_nil) hrest

theorem lambda_succ (hus : Declares us) (hnm : n ≤ m) (s : State) (hfits : C → s.Fits us)
    (hlambda : C → s.startsLambda = true) :
    Carries us always C (Parser.lambda (n + 1)) (Parser.lambda (m + 1)) s fun _ s₁ =>
      s₁.Begun us := by
  have hrest : C → s.rest ≠ [] := by
    intro hc hrest
    have hstarts := hlambda hc
    rw [State.startsLambda, hrest] at hstarts
    cases hstarts
  unfold Parser.lambda
  refine (carries_takeToken hrest hfits).bind fun _ s₁ => ?_
  refine (carries_parameters hus hnm fun h => h.1.toFits).bind fun params s₂ => ?_
  refine (carries_expect _ _ id).bind fun _ s₃ => ?_
  refine (carries_expect _ _ fun h => h.1.toFits).bind fun arrow s₄ => ?_
  refine .of_sees ?_ fun hc hrest a s₅ hrun => ?_
  · refine (carries_accept hus _ (fun hc => .inr hc.2) fun hc => hc.1.1.toFits).bind
      fun taken s₅ => ?_
    cases taken with
    | true =>
      refine (carries_withLoops_begun ?_ h.block).bind fun _ _ => .pure id
      rintro ⟨t, ht, -⟩
      exact ht.toFits
    | false =>
      refine (h.expression s₅ ?_).bind fun _ _ => .pure id
      rintro ⟨rfl, hc⟩
      exact hc.1.1.toFits
  · -- neither a brace nor a value is left
    have hnone : accept .leftBrace s₄ = .ok false s₄ := by
      refine if_neg fun hstarts => ?_
      exact State.rest_ne_nil_of_startsWith hstarts hrest
    have hmeets := (rulesBuild n).expression s₄ hc.1.proper
    have hvalue := ne_zero_of_meets hmeets
      (fun _ _ _ hpost => hpost.derives.expression_ne_nil) hrest
    simp only [Bind.bind, EStateM.bind, hnone, Bool.false_eq_true, if_false] at hrun
    cases hexpr : Parser.expression n s₄ with
    | error => simp only [hexpr, reduceCtorEq] at hrun
    | ok value s₆ =>
      simp only [hexpr] at hrun
      cases hrun
      exact hvalue value _ hexpr

theorem assignment_succ (hus : Declares us) (s : State) (hfits : C → s.Fits us) :
    Carries us always C (Parser.assignment (n + 1)) (Parser.assignment (m + 1)) s fun _ s₁ =>
      s₁.Begun us := by
  have hequal : ∀ k : Kind, k.opensDeclaration = true → decide (k = .equal) = false := by
    intro k hk
    rw [decide_eq_false_iff_not]
    rintro rfl
    cases hk
  unfold Parser.assignment
  refine (h.conditional s hfits).bind fun target s₁ => ?_
  refine (carries_acceptToken? hus _ (fun _ => .inl hequal) fun h => h.toFits).bind
    fun equals? s₂ => ?_
  cases equals? with
  | none =>
    refine .pure ?_
    rintro ⟨rfl, htarget⟩
    exact htarget
  | some equals =>
    refine (h.assignment s₂ fun h => h.1.toFits).bind fun value s₃ => ?_
    split
    · exact .pure id
    · exact (carries_complain _ _ (D := fun _ _ => False)).bind fun _ _ => .pure False.elim

theorem conditional_succ (hus : Declares us) (s : State) (hfits : C → s.Fits us) :
    Carries us always C (Parser.conditional (n + 1)) (Parser.conditional (m + 1)) s fun _ s₁ =>
      s₁.Begun us := by
  unfold Parser.conditional
  refine (h.level _ s hfits).bind fun test s₁ => ?_
  refine (carries_accept_begun hus _ rfl fun h => h.toBegun).bind fun taken s₂ => ?_
  split
  · refine (h.expression s₂ fun h => h.toFits).bind fun yes s₃ => ?_
    refine (carries_expect _ _ fun h => h.toFits).bind fun _ s₄ => ?_
    exact (h.conditional s₄ fun h => h.1.toFits).bind fun _ _ => .pure id
  · exact .pure id

theorem level_succ (l : Level) (s : State) (hfits : C → s.Fits us) :
    Carries us always C (Parser.level (n + 1) l) (Parser.level (m + 1) l) s fun _ s₁ =>
      s₁.Ahead us := by
  unfold Parser.level
  exact (h.operand l s hfits).bind fun left s₁ => h.levelRest l left s₁ id

theorem operand_succ (l : Level) (s : State) (hfits : C → s.Fits us) :
    Carries us always C (Parser.operand (n + 1) l) (Parser.operand (m + 1) l) s fun _ s₁ =>
      s₁.Ahead us := by
  unfold Parser.operand
  cases l.tighter? with
  | none => exact h.unary s hfits
  | some tighter => exact h.level tighter s hfits

theorem levelRest_succ (hus : Declares us) (l : Level) (left : Expr) (s : State)
    (hahead : C → s.Ahead us) :
    Carries us always C (Parser.levelRest (n + 1) l left) (Parser.levelRest (m + 1) l left) s
      fun _ s₁ => s₁.Ahead us := by
  unfold Parser.levelRest
  refine (carries_acceptToken? hus _ (fun hc => .inr (hahead hc).sees)
    fun hc => (hahead hc).toFits).bind fun operator? s₁ => ?_
  cases operator? with
  | none =>
    refine .pure ?_
    rintro ⟨rfl, hc⟩
    exact hahead hc
  | some operator =>
    exact (h.operand l s₁ fun h => h.1.toFits).bind fun right s₂ => h.levelRest l _ s₂ id

theorem unary_succ (hus : Declares us) (s : State) (hfits : C → s.Fits us) :
    Carries us always C (Parser.unary (n + 1)) (Parser.unary (m + 1)) s fun _ s₁ =>
      s₁.Ahead us := by
  refine .of_sees ?_ fun hc hrest => ?_
  · unfold Parser.unary
    refine (carries_acceptToken? hus _ (fun hc => .inr hc.2) fun hc => hfits hc.1).bind
      fun operator? s₁ => ?_
    cases operator? with
    | none =>
      refine (h.primary s₁ ?_ ?_).bind fun value s₂ => h.suffixes value s₂ id
      · rintro ⟨rfl, hc⟩
        exact hfits hc.1
      · rintro ⟨rfl, hc⟩
        exact hc.2
    | some operator => exact (h.unary s₁ fun h => h.1.toFits).bind fun _ _ => .pure id
  · have hmeets := (rulesBuild (n + 1)).unary s (hfits hc).proper
    exact ne_zero_of_meets hmeets (fun _ _ _ hpost => hpost.derives.unary_ne_nil) hrest

theorem suffixes_succ (value : Expr) (s : State) (hahead : C → s.Ahead us) :
    Carries us always C (Parser.suffixes (n + 1) value) (Parser.suffixes (m + 1) value) s
      fun _ s₁ => s₁.Ahead us := by
  have hfits : C → s.Fits us := fun hc => (hahead hc).toFits
  unfold Parser.suffixes
  refine .peek (fun hc => (hahead hc).sees) ?_
  generalize hkind : s.next.kind = kind
  cases kind with
  | leftParen =>
    refine (carries_takeToken_of_kind hkind Kind.noConfusion hfits).bind fun _ s₁ => ?_
    refine (h.expressions _ _ s₁ rfl fun h => h.1.toFits).bind fun arguments s₂ => ?_
    exact (carries_expect _ _ id).bind fun paren s₃ =>
      h.suffixes _ s₃ fun hparen => ahead_of_behind hparen rfl
  | dot =>
    refine (carries_takeToken_of_kind hkind Kind.noConfusion hfits).bind fun _ s₁ => ?_
    exact (carries_expect _ _ fun h => h.1.toFits).bind fun name s₂ =>
      h.suffixes _ s₂ fun hname => ahead_of_behind hname rfl
  | leftBracket =>
    refine (carries_takeToken_of_kind hkind Kind.noConfusion hfits).bind fun bracket s₁ => ?_
    refine (h.expression s₁ fun h => h.1.toFits).bind fun key s₂ => ?_
    exact (carries_expect _ _ fun h => h.toFits).bind fun closing s₃ =>
      h.suffixes _ s₃ fun hclosing => ahead_of_behind hclosing rfl
  | _ => exact .pure hahead

theorem expressions_succ (hus : Declares us) (closing : Kind) (limited : Bool) (s : State)
    (hclosing : closing.opensDeclaration = false) (hfits : C → s.Fits us) :
    Carries us always C (Parser.expressions (n + 1) closing limited)
      (Parser.expressions (m + 1) closing limited) s fun _ s₁ => s₁.Fits us := by
  unfold Parser.expressions
  refine .check hus hclosing ?_
  split
  · exact .pure hfits
  · exact (h.expressionList limited 0 s hfits).mono id fun _ _ _ h => h.toFits

theorem expressionList_succ (hus : Declares us) (limited : Bool) (count : Nat) (s : State)
    (hfits : C → s.Fits us) :
    Carries us always C (Parser.expressionList (n + 1) limited count)
      (Parser.expressionList (m + 1) limited count) s fun _ s₁ => s₁.Begun us := by
  unfold Parser.expressionList
  have hlist : ∀ {C : Prop} (s : State), (C → s.Fits us) → Carries us always C
      (do
        let value ← Parser.expression n
        if ← accept .comma then
          let values ← Parser.expressionList n limited (count + 1)
          return value :: values
        else return [value])
      (do
        let value ← Parser.expression m
        if ← accept .comma then
          let values ← Parser.expressionList m limited (count + 1)
          return value :: values
        else return [value]) s fun _ s₁ => s₁.Begun us := by
    intro C s hfits
    refine (h.expression s hfits).bind fun value s₁ => ?_
    refine (carries_accept_begun hus _ rfl id).bind fun taken s₂ => ?_
    split
    · exact (h.expressionList limited (count + 1) s₂ fun h => h.toFits).bind fun _ _ => .pure id
    · exact .pure id
  split
  · exact (carries_complainNext _ (D := fun _ _ => False)).bind fun _ s₁ => hlist s₁ False.elim
  · exact hlist s hfits

theorem primary_succ (s : State) (hfits : C → s.Fits us) (hsees : C → s.Sees us) :
    Carries us always C (Parser.primary (n + 1)) (Parser.primary (m + 1)) s fun _ s₁ =>
      s₁.Ahead us := by
  unfold Parser.primary
  refine .peek hsees ?_
  generalize hkind : s.next.kind = kind
  cases kind with
  | falseKw | trueKw | nullKw | undefinedKw | newlineKw | number | string =>
    exact (carries_takeToken_of_kind hkind Kind.noConfusion hfits).bind fun _ _ =>
      .pure fun h => ahead_of_behind h rfl
  | selfKw | identifier =>
    refine (carries_takeToken_of_kind hkind Kind.noConfusion hfits).bind fun name s₁ => ?_
    refine carries_freshId.bind fun id s₂ => .pure ?_
    rintro ⟨rfl, hname⟩
    exact (ahead_of_behind hname rfl).numbered _
  | leftParen =>
    refine (carries_takeToken_of_kind hkind Kind.noConfusion hfits).bind fun _ s₁ => ?_
    refine (h.expression s₁ fun h => h.1.toFits).bind fun inner s₂ => ?_
    exact (carries_expect _ _ fun h => h.toFits).bind fun _ _ =>
      .pure fun h => ahead_of_behind h rfl
  | leftBracket =>
    refine (carries_takeToken_of_kind hkind Kind.noConfusion hfits).bind fun bracket s₁ => ?_
    refine (h.expressions _ _ s₁ rfl fun h => h.1.toFits).bind fun elements s₂ => ?_
    exact (carries_expect _ _ id).bind fun _ _ => .pure fun h => ahead_of_behind h rfl
  | _ => exact .of_error rfl (Nat.le_refl _)

end RulesCarry

/-- **Every rule carries on**, with more fuel and in front of a declaration. -/
theorem rulesCarry {us : List Token} (hus : Declares us) {n m : Nat} (hnm : n ≤ m) :
    RulesCarry us n m := by
  induction n generalizing m with
  | zero => exact rulesCarry_zero us m
  | succ n ih =>
    obtain ⟨m, rfl⟩ : ∃ k, m = k + 1 := ⟨m - 1, by omega⟩
    have hle := Nat.le_of_succ_le_succ hnm
    have h := ih hle
    exact
      { declarations := h.declarations_succ hus
        declaration := h.declaration_succ
        methodList := h.methodList_succ hus
        functionRest := h.functionRest_succ hus hle
        variableRest := h.variableRest_succ hus
        block := h.block_succ
        statement := h.statement_succ hus
        expressionStatement := h.expressionStatement_succ hus
        countedLoop := h.countedLoop_succ
        loopStart := h.loopStart_succ hus
        optionalExpression := h.optionalExpression_succ hus
        expression := h.expression_succ hus
        lambda := h.lambda_succ hus hle
        assignment := h.assignment_succ hus
        conditional := h.conditional_succ hus
        level := h.level_succ
        levelRest := h.levelRest_succ hus
        operand := h.operand_succ
        unary := h.unary_succ hus
        suffixes := h.suffixes_succ
        expressions := h.expressions_succ hus
        expressionList := h.expressionList_succ hus
        primary := h.primary_succ }

/-! ### Whole programs -/

/-- Outside of a block the declarations go on up to the end. -/
theorem declarations_eq (fuel : Nat) (s : State) :
    declarations (fuel + 1) false s =
      if s.rest = [] then .ok [] s
      else (do
        let first ← recover (declaration fuel)
        let others ← declarations fuel false
        return first.toList ++ others) s := by
  rw [declarations]
  cases hrest : s.rest with
  | nil => simp [Bind.bind, EStateM.bind, atEnd, State.atEnd, hrest, Pure.pure, EStateM.pure]
  | cons t rest =>
    simp only [Bind.bind, EStateM.bind, atEnd, State.atEnd, hrest, List.isEmpty_cons, check,
      Bool.false_and, Bool.false_eq_true, if_false, reduceCtorEq]

theorem recover_eq_some {α : Type} {rule : Rule α} {s s₁ : State} {a : α}
    (h : recover rule s = .ok (some a) s₁) : rule s = .ok a s₁ := by
  unfold recover at h
  split at h
  · next hrule =>
    cases h
    exact hrule
  · cases h
  · cases h

/-- No declaration is read from nothing. -/
theorem length_rest_declaration {n : Nat} {s s₁ : State} {d : Stmt} (hs : s.Proper)
    (hrun : declaration n s = .ok d s₁) (hquiet : s₁.reports.size = 0) :
    s₁.rest.length + 1 ≤ s.rest.length := by
  have hmeets := (rulesBuild n).declaration s hs
  obtain ⟨read, hread, hbuilds⟩ := hmeets.reads hrun hquiet
  have hpos := List.length_pos_iff.mpr hbuilds.derives.opensDeclaration.ne_nil
  rw [hread.rest, List.length_append]
  omega

/-- All declarations are read up to where the other tokens start, and reading goes on there. Of the
fuel at most as much is used as there were tokens. -/
theorem declarations_join {us : List Token} (hus : Declares us) {n m : Nat} (hnm : n ≤ m)
    {s s₁ s' : State} {ss : List Stmt} (hfits : s.rest ≠ [] → s.Fits us)
    (hrun : declarations n false s = .ok ss s₁) (hquiet : s₁.reports.size = 0)
    (hjoined : s.Joined us s') :
    ∃ s₁' m', s₁.rest = [] ∧ s₁.Joined us s₁' ∧ m ≤ m' + s.rest.length ∧
      declarations m false s' =
        (do let others ← declarations m' false; return ss ++ others) s₁' := by
  induction n generalizing m s s' ss with
  | zero => cases hrun
  | succ n ih =>
    obtain ⟨m, rfl⟩ : ∃ k, m = k + 1 := ⟨m - 1, by omega⟩
    have hle := Nat.le_of_succ_le_succ hnm
    rw [declarations_eq] at hrun
    split at hrun
    · next hrest =>
      cases hrun
      refine ⟨s', m + 1, hrest, hjoined, Nat.le_add_right _ _, ?_⟩
      simp only [List.nil_append, bind_pure]
    · next hrest =>
      simp only [Bind.bind, EStateM.bind] at hrun
      cases hfirst : recover (declaration n) s with
      | error => simp only [hfirst, reduceCtorEq] at hrun
      | ok first? s₂ =>
        simp only [hfirst] at hrun
        have hcarries := rulesCarry hus hle
        have hgrows := (hcarries.declarations (C := False) false s₂ False.elim).grows
        cases hothers : declarations n false s₂ with
        | error => simp only [hothers, reduceCtorEq] at hrun
        | ok others s₃ =>
          simp only [hothers] at hrun
          cases hrun
          rw [hothers] at hgrows
          have hquiet₂ : s₂.reports.size = 0 := Nat.eq_zero_of_le_zero (hquiet ▸ hgrows)
          have hdeclaration : Carries us always True (recover (declaration n))
              (recover (declaration m)) s fun first? s₂ => ∃ d, first? = some d ∧ s₂.Begun us :=
            carries_recover (hcarries.declaration s (fun _ => hfits hrest) fun _ => .inl hrest)
          obtain ⟨⟨first, rfl, hbegun⟩, hjoins⟩ :=
            hdeclaration.carries trivial first? s₂ hfirst hquiet₂
          obtain ⟨s₂', hfirst', hjoined₂⟩ := hjoins trivial s' hjoined
          obtain ⟨s₁', m', hend, hjoined₁, hfuel, hgoesOn⟩ :=
            ih hle (fun _ => hbegun.toFits) hothers hjoined₂
          refine ⟨s₁', m', hend, hjoined₁, ?_, ?_⟩
          · have hdeclared := recover_eq_some hfirst
            have hlength := length_rest_declaration (hfits hrest).proper hdeclared hquiet₂
            omega
          · have hrest' : s'.rest ≠ [] := by simp [hjoined.rest, hrest]
            rw [declarations_eq, if_neg hrest']
            simp only [Bind.bind, EStateM.bind, hfirst', hgoesOn]
            cases declarations m' false s₁' with
            | error => rfl
            | ok => simp [Pure.pure, EStateM.pure]

/-- The tokens of a program start with a declaration. -/
theorem declares_of_parseProgram {tokens : List Token} {firstId : Nat} {program : List Stmt}
    (h : (parseProgram tokens firstId).tree? = some program) :
    Declares (tokens.takeWhile (·.kind ≠ .endOfInput)) := by
  intro t ht
  have hne : tokens.takeWhile (·.kind ≠ .endOfInput) ≠ [] := by
    intro hnil
    rw [hnil] at ht
    cases ht
  obtain ⟨u, us, htokens, hopens⟩ := (parseProgram_derives h).opensDeclaration_of_declarations hne
  rw [htokens] at ht
  cases ht
  exact hopens

/-- What it means that a program is read. -/
theorem parseProgram_eq_some {tokens : List Token} {firstId : Nat} {program : List Stmt}
    (h : (parseProgram tokens firstId).tree? = some program) :
    ∃ s, declarations (fuelFor tokens) false (.ofTokens tokens firstId) = .ok program s ∧
      s.reports.size = 0 ∧ (parseProgram tokens firstId).nextId = s.nextId := by
  unfold parseProgram runRule at h ⊢
  split at h
  · next s hrun =>
    split at h
    · next hempty =>
      cases h
      simp only [hrun]
      exact ⟨s, rfl, Array.isEmpty_iff_size_eq_zero.mp hempty, rfl⟩
    · cases h
  · cases h
  · cases h

theorem parseProgram_of_declarations {tokens : List Token} {firstId : Nat} {program : List Stmt}
    {s : State} (h : declarations (fuelFor tokens) false (.ofTokens tokens firstId) = .ok program s)
    (hquiet : s.reports = #[]) : parseProgram tokens firstId = ⟨some program, s.nextId, []⟩ := by
  simp [parseProgram, runRule, h, hquiet]

/-- With more fuel, and whatever was read before, a program is read as from the start. -/
theorem declarations_restart {tokens : List Token} {firstId m : Nat} {program : List Stmt}
    {s s' : State}
    (hrun : declarations (fuelFor tokens) false (.ofTokens tokens firstId) = .ok program s)
    (hquiet : s.reports.size = 0) (hm : fuelFor tokens ≤ m)
    (hjoined : (State.ofTokens tokens firstId).Joined [] s') :
    ∃ s₁', declarations m false s' = .ok program s₁' ∧ s.Joined [] s₁' := by
  have hfits : (State.ofTokens tokens firstId).Fits [] :=
    ⟨proper_ofTokens tokens firstId, fun hne => absurd rfl hne⟩
  have hdeclares : Declares [] := nofun
  have hcarries := (rulesCarry hdeclares hm).declarations false _ fun _ : True => hfits
  exact (hcarries.carries trivial program s hrun hquiet).2 (.inr rfl) s' hjoined

/-- **Two programs are read one behind the other** if the first one ends with a token that closes:
the second one is read as it would be on its own, with the numbers that come next. -/
theorem parseProgram_append {tokens others : List Token} {firstId : Nat} {first second : List Stmt}
    (hfirst : (parseProgram tokens firstId).tree? = some first)
    (hsecond : (parseProgram others (parseProgram tokens firstId).nextId).tree? = some second)
    (hcloses : ∀ t ∈ (tokens.takeWhile (·.kind ≠ .endOfInput)).getLast?, closes t.kind = true)
    (hlength : tokens.length ≤ (tokens.takeWhile (·.kind ≠ .endOfInput) ++ others).length) :
    parseProgram (tokens.takeWhile (·.kind ≠ .endOfInput) ++ others) firstId =
      ⟨some (first ++ second), (parseProgram others (parseProgram tokens firstId).nextId).nextId,
        []⟩ := by
  obtain ⟨s₁, hrun₁, hquiet₁, hnext₁⟩ := parseProgram_eq_some hfirst
  have hus : Declares (others.takeWhile (·.kind ≠ .endOfInput)) := declares_of_parseProgram hsecond
  obtain ⟨s₂, hrun₂, hquiet₂, hnext₂⟩ := parseProgram_eq_some hsecond
  rw [hnext₁] at hrun₂ hnext₂ ⊢
  rw [hnext₂]
  generalize hfront : tokens.takeWhile (·.kind ≠ .endOfInput) = front at hcloses hlength ⊢
  have hall : ∀ t ∈ front, decide (t.kind ≠ .endOfInput) = true := by
    rw [← hfront]
    exact List.all_eq_true.mp List.all_takeWhile
  have hfits : front ≠ [] →
      (State.ofTokens tokens firstId).Fits (others.takeWhile (·.kind ≠ .endOfInput)) := by
    intro hne
    refine ⟨proper_ofTokens tokens firstId, fun _ => ?_⟩
    have hlast := List.getLast?_eq_some_getLast hne
    refine ⟨front.getLast hne, ?_, hcloses _ hlast⟩
    rw [State.ofTokens, hfront, hlast]
    rfl
  have hjoined : (State.ofTokens tokens firstId).Joined (others.takeWhile (·.kind ≠ .endOfInput))
      (State.ofTokens (front ++ others) firstId) := by
    refine ⟨?_, ?_, .inl rfl, rfl, rfl, rfl⟩
    · rw [State.ofTokens, State.ofTokens, hfront, List.takeWhile_append_of_pos hall]
    · exact (proper_ofTokens _ _).trans (proper_ofTokens _ _).symm
  have hfuel : fuelFor tokens ≤ fuelFor (front ++ others) := by
    unfold fuelFor
    omega
  obtain ⟨s₁', m, hend, hjoined₁, hm, hjoin⟩ := declarations_join hus hfuel
    (fun hrest => hfits (hfront ▸ hrest)) hrun₁ hquiet₁ hjoined
  have hleads : (State.ofTokens tokens firstId).Leads s₁ :=
    ((rulesBuild (fuelFor tokens)).declarations false _ (proper_ofTokens tokens firstId)).leads hrun₁
  have hrestart : (State.ofTokens others s₁.nextId).Joined [] s₁' := by
    refine ⟨?_, ?_, .inl rfl, hjoined₁.loops.trans hleads.loops, hjoined₁.nextId, ?_⟩
    · rw [hjoined₁.rest, hend, List.nil_append, List.append_nil]
      rfl
    · rw [hjoined₁.ending, hleads.proper (proper_ofTokens tokens firstId)]
      exact (proper_ofTokens _ _).symm
    · rw [hjoined₁.reports]
      exact Array.eq_empty_of_size_eq_zero hquiet₁
  have hless : fuelFor others ≤ m := by
    have hrest : (State.ofTokens tokens firstId).rest = front := hfront
    rw [hrest] at hm
    unfold fuelFor at hm ⊢
    rw [List.length_append] at hm
    omega
  obtain ⟨s₂', hrun₂', hjoined₂⟩ := declarations_restart hrun₂ hquiet₂ hless hrestart
  rw [parseProgram_of_declarations (s := s₂')]
  · rw [hjoined₂.nextId]
  · rw [hjoin]
    simp only [Bind.bind, EStateM.bind, hrun₂']
    rfl
  · rw [hjoined₂.reports]
    exact Array.eq_empty_of_size_eq_zero hquiet₂

end Parser

end Roteiro
