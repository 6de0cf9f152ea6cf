import Roteiro.Proofs.Parser.Counting

/-!
# Two texts side by side

Two texts are the same but for one place, where one of them has the assignment `i = i + 1` and the
other one the step `i++`. They are read side by side: as long as the place is ahead, the next token
is the same in both; behind it, all tokens are. `Side` relates the two states. In between stands a
state in which the semicolon behind the step is read already, while the one behind the assignment is
not (`Taken`).

`Follows` says what becomes of the second text if reading the first one has ended well: either it
ends as well, with a tree that is alike, or the first thing to complain about there is that the
semicolon behind the condition of a counted loop is missing. Of a first text that cannot be read on,
nothing is said.

Not everywhere behind a token may an expression stand. Behind an operator with two operands, say,
only an operand may (`Kind.narrows`), and a step is none.

* `Follows.bind`: two rules in sequence.
* `follows_expect`, `follows_accept`, …: what the small rules do.
-/

namespace Roteiro

open Grammar

/-- The kinds behind which something less than an expression is read: an operand, a name, or the
value of an assignment. -/
def Kind.narrows : Kind → Bool
  | .equal | .colon | .bang | .dot | .varKw => true
  | .orKw | .andKw | .bangEqual | .equalEqual | .greater | .greaterEqual | .less | .lessEqual
  | .minus | .plus | .star | .slash | .percent => true
  | _ => false

namespace Parser

theorem Level.narrows_of_operators {l : Level} {kind : Kind} (h : l.operators kind = true) :
    kind.narrows = true := by
  have hgrip := Level.grip_of_operators h
  cases kind <;> first | rfl | (cases l <;> cases hgrip)

/-- What may stand in front of the assignment and is taken together with it, since it narrows and
yet an expression follows: the start of a variable declaration. -/
inductive Front : List Token → Prop
  | nothing : Front []
  | initializer {keyword name equal : Token} (hkeyword : keyword.kind = .varKw)
      (hname : name.kind = .identifier) (hequal : equal.kind = .equal) :
      Front [keyword, name, equal]

/-- Behind these tokens the assignment ends the condition of a counted loop: its keyword, a
parenthesis and a start stand there, and maybe the front of the condition. -/
inductive Counting.EndsCondition (c : Counting) : List Token → Prop
  | head {us rs vs : List Token} {keyword opening : Token} {start : Option Stmt} {test : Expr}
      (hkeyword : keyword.kind = .forKw) (hopening : opening.kind = .leftParen)
      (hstart : Derives .loopStart rs start) (htest : Derives .expression (vs ++ c.long) test) :
      EndsCondition c (us ++ keyword :: opening :: (rs ++ vs))

/-- A place where an assignment stands that can be shortened. -/
structure Site extends Counting where
  /-- The tokens in front. -/
  before : List Token
  /-- The tokens that are taken together with the assignment. -/
  front : List Token
  /-- The tokens behind, without the end marker. -/
  after : List Token
  fronts : Front front
  calm : grip after = 0
  wide : ∀ t ∈ before.getLast?, t.kind.narrows = false

namespace Site

variable (w : Site)

/-- The tokens from the place on. -/
def whole : List Token := w.front ++ (w.long ++ w.after)

/-- The tokens from the place on, with the step. -/
def brief : List Token := w.front ++ (w.short ++ w.after)

/-- Either the assignment comes first, or the start of a variable declaration does. -/
theorem front_cases : w.whole = w.long ++ w.after ∧ w.brief = w.short ++ w.after ∨
    ∃ keyword name equal : Token, keyword.kind = .varKw ∧ name.kind = .identifier ∧
      equal.kind = .equal ∧ w.whole = keyword :: name :: equal :: (w.long ++ w.after) ∧
      w.brief = keyword :: name :: equal :: (w.short ++ w.after) := by
  have hfronts := w.fronts
  unfold whole brief
  generalize w.front = front at hfronts ⊢
  cases hfronts with
  | nothing => exact .inl ⟨rfl, rfl⟩
  | initializer hkeyword hname hequal =>
    exact .inr ⟨_, _, _, hkeyword, hname, hequal, rfl, rfl⟩

theorem heads : ∃ t ts t' ts', w.whole = t :: ts ∧ w.brief = t' :: ts' ∧ shapes.token t t' ∧
    (t.kind = .identifier ∨ t.kind = .varKw) := by
  rcases w.front_cases with ⟨hwhole, hbrief⟩ | ⟨keyword, _, _, hkeyword, -, -, hwhole, hbrief⟩
  · exact ⟨_, _, _, _, hwhole, hbrief, w.counted_like, .inl w.target_kind⟩
  · exact ⟨_, _, _, _, hwhole, hbrief, shapes_refl keyword, .inr hkeyword⟩

/-- No arrow follows a list of parameters that reaches up to the place. -/
theorem arrowAhead_append (p : List Token) :
    arrowAhead (p ++ w.brief) = arrowAhead (p ++ w.whole) := by
  induction p with
  | nil =>
    rcases w.front_cases with ⟨hwhole, hbrief⟩ | ⟨_, _, _, hkeyword, -, -, hwhole, hbrief⟩
    · have hequals : arrowAhead (w.long ++ w.after) = false := by
        simp [Counting.long, arrowAhead, w.target_kind, w.equals_kind]
      have hstep : arrowAhead (w.short ++ w.after) = false := by
        rcases w.step_kind with h | h <;> simp [Counting.short, arrowAhead, w.counted_kind, h]
      rw [hwhole, hbrief]
      exact hstep.trans hequals.symm
    · simp [hwhole, hbrief, arrowAhead, hkeyword]
  | cons u p ih =>
    obtain ⟨t, ts, t', ts', hwhole, hbrief, ⟨hlike, -⟩, hkind⟩ := w.heads
    have hhead : (p ++ w.brief).head?.any (fun t => decide (t.kind = .arrow)) =
        (p ++ w.whole).head?.any (fun t => decide (t.kind = .arrow)) := by
      cases p with
      | nil => simp [hwhole, hbrief, hlike]
      | cons => rfl
    simp only [List.cons_append, arrowAhead, ih, hhead]

end Site

/-- Where the two texts stand, by the tokens still to be read. `inside` says that the place is not
what comes next. -/
inductive Place (w : Site) : Bool → List Token → List Token → Prop
  | here {ts ts' : List Token} (hrest : ts = w.whole) (hrest' : ts' = w.brief) :
      Place w false ts ts'
  | ahead {inside : Bool} {ts ts' : List Token} {t : Token} {p : List Token}
      (hrest : ts = t :: (p ++ w.whole)) (hrest' : ts' = t :: (p ++ w.brief))
      (hbefore : t :: p <:+ w.before) : Place w inside ts ts'
  | behind {inside : Bool} {ts ts' : List Token} (hrest : ts' = ts) (hafter : ts <:+ w.after) :
      Place w inside ts ts'

/-- Two states are the same but for the tokens. -/
structure State.Even (s s' : State) : Prop where
  proper : s.Proper
  ending : shapes.token s.ending s'.ending
  loops : s'.loops = s.loops
  nextId : s'.nextId = s.nextId
  reports : s'.reports = s.reports

/-- The two texts are read side by side. -/
structure Side (w : Site) (inside : Bool) (s s' : State) : Prop extends s.Even s' where
  place : Place w inside s.rest s'.rest
  last : s'.last.any (·.kind = .semicolon) = s.last.any (·.kind = .semicolon)

/-- The semicolon behind the step is read, that behind the assignment is not. -/
structure Taken (w : Site) (s s' : State) : Prop where
  rest : s.rest = w.after
  semicolon : begins w.after .semicolon = true
  goesOn : s.last.any (·.kind = .semicolon) = false
  side : Side w false s.advance s'

variable {w : Site} {inside : Bool} {s s' : State}

theorem Taken.starts (h : Taken w s s') : s.startsWith .semicolon = true := by
  rw [State.startsWith, h.rest]
  exact h.semicolon

theorem State.Even.proper' (h : s.Even s') : s'.Proper := h.ending.1.trans h.proper

/-- Reading a token changes nothing else. -/
theorem State.even_advance (hs : s.Proper) : s.Even s.advance := by
  refine ⟨hs, ?_, ?_, ?_, ?_⟩ <;> unfold State.advance <;> split <;>
    first | rfl | exact shapes_refl _

theorem State.Even.advance (h : s.Even s') : s.advance.Even s'.advance := by
  have hsame : ∀ s : State, s.advance.ending = s.ending ∧ s.advance.loops = s.loops ∧
      s.advance.nextId = s.nextId ∧ s.advance.reports = s.reports := by
    intro s
    unfold State.advance
    split <;> exact ⟨rfl, rfl, rfl, rfl⟩
  obtain ⟨hending, hloops, hnext, hreports⟩ := hsame s
  obtain ⟨hending', hloops', hnext', hreports'⟩ := hsame s'
  refine ⟨?_, ?_, ?_, ?_, ?_⟩
  · rw [State.Proper, hending]
    exact h.proper
  · rw [hending, hending']
    exact h.ending
  · rw [hloops, hloops', h.loops]
  · rw [hnext, hnext', h.nextId]
  · rw [hreports, hreports', h.reports]

namespace Side

/-- What is still to be read is the end of the first text. -/
theorem suffix (h : Side w inside s s') : s.rest <:+ w.before ++ w.whole := by
  cases h.place with
  | here hrest => exact hrest ▸ List.suffix_append _ _
  | ahead hrest hrest' hbefore =>
    rw [hrest, ← List.cons_append]
    obtain ⟨us, hus⟩ := hbefore
    exact ⟨us, by rw [← hus, List.append_assoc]⟩
  | behind hrest hafter =>
    refine hafter.trans ⟨w.before ++ (w.front ++ w.long), ?_⟩
    simp only [Site.whole, List.append_assoc]

/-- The place may be next. -/
theorem loosen (h : Side w inside s s') : Side w false s s' := by
  refine ⟨h.toEven, ?_, h.last⟩
  cases h.place with
  | here hrest hrest' => exact .here hrest hrest'
  | ahead hrest hrest' hbefore => exact .ahead hrest hrest' hbefore
  | behind hrest hafter => exact .behind hrest hafter

theorem head (h : Side w inside s s') : Option.Rel shapes.token s.rest.head? s'.rest.head? := by
  cases h.place with
  | here hrest hrest' =>
    obtain ⟨t, ts, t', ts', hwhole, hbrief, hlike, -⟩ := w.heads
    rw [hrest, hrest', hwhole, hbrief]
    exact .some hlike
  | ahead hrest hrest' =>
    rw [hrest, hrest']
    exact .some (shapes_refl _)
  | behind hrest =>
    rw [hrest]
    cases s.rest.head? with
    | none => exact .none
    | some t => exact .some (shapes_refl t)

theorem next (h : Side w inside s s') : shapes.token s.next s'.next := by
  have hhead := h.head
  unfold State.next
  generalize s.rest.head? = t? at hhead ⊢
  generalize s'.rest.head? = t?' at hhead ⊢
  cases hhead with
  | none => exact h.ending
  | some ht => exact ht

theorem startsWith (h : Side w inside s s') (kind : Kind) :
    s'.startsWith kind = s.startsWith kind := by
  have hhead := h.head
  unfold State.startsWith
  generalize s.rest.head? = t? at hhead ⊢
  generalize s'.rest.head? = t?' at hhead ⊢
  cases hhead with
  | none => rfl
  | some ht => simp [ht.1]

theorem atEnd (h : Side w inside s s') : s'.atEnd = s.atEnd := by
  have hhead := h.head
  unfold State.atEnd
  cases hrest : s.rest with
  | nil =>
    cases hrest' : s'.rest with
    | nil => rfl
    | cons => rw [hrest, hrest'] at hhead; cases hhead
  | cons =>
    cases hrest' : s'.rest with
    | nil => rw [hrest, hrest'] at hhead; cases hhead
    | cons => rfl

theorem startsLambda (h : Side w inside s s') : s'.startsLambda = s.startsLambda := by
  unfold State.startsLambda
  cases h.place with
  | here hrest hrest' =>
    obtain ⟨t, ts, t', ts', hwhole, hbrief, ⟨hlike, -⟩, hkind⟩ := w.heads
    rw [hrest, hrest', hwhole, hbrief]
    dsimp only
    rcases hkind with hkind | hkind <;> simp [hlike, hkind]
  | ahead hrest hrest' =>
    rw [hrest, hrest']
    dsimp only
    rw [w.arrowAhead_append]
  | behind hrest => rw [hrest]

/-- Only at the place itself does one text start with a step and the other one not. -/
theorem startsStep (h : Side w true s s') : s'.startsStep = s.startsStep := by
  unfold State.startsStep
  cases h.place with
  | @ahead _ _ _ _ p hrest hrest' =>
    rw [hrest, hrest']
    cases p with
    | nil =>
      obtain ⟨t, ts, t', ts', hwhole, hbrief, ⟨hlike, -⟩, hkind⟩ := w.heads
      rw [List.nil_append, List.nil_append, hwhole, hbrief]
      dsimp only
      rw [hlike]
    | cons => rfl
  | behind hrest => rw [hrest]

theorem inside_or_here (h : Side w inside s s') :
    Side w true s s' ∨ s.rest = w.whole ∧ s'.rest = w.brief := by
  cases h.place with
  | here hrest hrest' => exact .inr ⟨hrest, hrest'⟩
  | ahead hrest hrest' hbefore => exact .inl ⟨h.toEven, .ahead hrest hrest' hbefore, h.last⟩
  | behind hrest hafter => exact .inl ⟨h.toEven, .behind hrest hafter, h.last⟩

/-- The place starts with a name or with `var`. -/
theorem inside_of_kind (h : Side w inside s s') (hname : s.next.kind ≠ .identifier)
    (hvar : s.next.kind ≠ .varKw) : Side w true s s' := by
  refine h.inside_or_here.resolve_right ?_
  rintro ⟨hrest, -⟩
  obtain ⟨t, ts, t', ts', hwhole, -, -, hkind⟩ := w.heads
  have hnext : s.next = t := State.next_of_rest (hrest.trans hwhole)
  rw [hnext] at hname hvar
  exact hkind.elim hname hvar

theorem inside_of_starts (h : Side w inside s s') {kind : Kind}
    (hstarts : s.startsWith kind = true) (hname : kind ≠ .identifier) (hvar : kind ≠ .varKw) :
    Side w true s s' := by
  have hkind := kind_next_of_startsWith hstarts
  exact h.inside_of_kind (hkind ▸ hname) (hkind ▸ hvar)

/-- A token is read in front of the place or behind it. Behind one that narrows the place does not
come next. -/
theorem advance (h : Side w true s s') : Side w s.next.kind.narrows s.advance s'.advance := by
  have heven := h.toEven.advance
  cases h.place with
  | @ahead _ _ _ t p hrest hrest' hbefore =>
    have hadvance : s.advance.rest = p ++ w.whole := State.rest_advance hrest
    have hadvance' : s'.advance.rest = p ++ w.brief := State.rest_advance hrest'
    have hlast : s.advance.last = some t := by rw [State.advance, hrest]
    have hlast' : s'.advance.last = some t := by rw [State.advance, hrest']
    refine ⟨heven, ?_, by rw [hlast, hlast']⟩
    cases p with
    | nil =>
      have hwide : s.next.kind.narrows = false := by
        rw [State.next_of_rest hrest]
        obtain ⟨us, hus⟩ := hbefore
        exact w.wide t (by simp [← hus])
      rw [hwide]
      exact .here hadvance hadvance'
    | cons u p => exact .ahead hadvance hadvance' ((List.suffix_cons t _).trans hbefore)
  | behind hrest hafter =>
    cases hs : s.rest with
    | nil =>
      have hstays : s.advance = s := by rw [State.advance, hs]
      have hstays' : s'.advance = s' := by rw [State.advance, hrest, hs]
      rw [hstays, hstays']
      exact ⟨h.toEven, .behind hrest hafter, h.last⟩
    | cons t rest =>
      have hadvance : s.advance.rest = rest := State.rest_advance hs
      have hadvance' : s'.advance.rest = rest := State.rest_advance (hrest.trans hs)
      have hlast : s.advance.last = some t := by rw [State.advance, hs]
      have hlast' : s'.advance.last = some t := by rw [State.advance, hrest, hs]
      refine ⟨heven, .behind (hadvance'.trans hadvance.symm) ?_, by rw [hlast, hlast']⟩
      rw [hadvance]
      exact (List.suffix_cons t rest).trans (hs ▸ hafter)

/-- Neither the open loops nor the numbers matter. -/
theorem inLoops (h : Side w inside s s') (loops : Nat) :
    Side w inside { s with loops } { s' with loops } :=
  ⟨⟨h.proper, h.ending, rfl, h.nextId, h.reports⟩, h.place, h.last⟩

theorem numbered (h : Side w inside s s') (nextId : Nat) :
    Side w inside { s with nextId } { s' with nextId } :=
  ⟨⟨h.proper, h.ending, h.loops, rfl, h.reports⟩, h.place, h.last⟩

end Side

/-! ### Rules in two texts -/

/-- The place ends the condition of a counted loop, and the first thing to complain about is that no
semicolon stands behind the condition, although one stands behind the step. -/
structure Site.Missed (w : Site) {β : Type} (result : EStateM.Result Stop State β) : Prop where
  condition : w.EndsCondition (w.before ++ w.front)
  semicolon : begins w.after .semicolon = true
  complains : ∃ t, (complaints result).head? = some (.parse t .expectedLoopConditionEnd)

/-- If a rule has given a result in the first text without a complaint, then in the second text the
semicolon of a condition was missed, or the rule has given a result there as well, and `E` holds of
the two results. Nothing is said where the first text `stops`, that is, cannot be read on. -/
def Follows (w : Site) (stops : State → Prop) {α β : Type} (E : α → β → State → State → Prop)
    (rule : Rule α) (rule' : Rule β) (s s' : State) : Prop :=
  ∀ a s₁, rule s = .ok a s₁ → s₁.reports = #[] →
    stops s₁ ∨ w.Missed (rule' s') ∨ ∃ a' s₁', rule' s' = .ok a' s₁' ∧ E a a' s₁ s₁'

/-- Reading always goes on. -/
def never (_ : State) : Prop := False

/-- A token of this kind is read next. -/
def facing (kind : Kind) (s : State) : Prop := s.startsWith kind = true

/-- The results are alike, and reading goes on side by side. -/
def Joint (w : Site) {α β : Type} (A : α → β → Prop) (a : α) (a' : β) (s s' : State) : Prop :=
  A a a' ∧ Side w false s s'

/-- The results are alike, but the semicolon behind the step may be read. -/
def Loose (w : Site) {α β : Type} (A : α → β → Prop) (a : α) (a' : β) (s s' : State) : Prop :=
  A a a' ∧ (Side w false s s' ∨ Taken w s s')

section Follows

variable {α α' β β' : Type} {stops stops' : State → Prop} {E : α → α' → State → State → Prop}
  {F : β → β' → State → State → Prop} {rule : Rule α} {rule' : Rule α'} {next : α → Rule β}
  {next' : α' → Rule β'}

theorem Site.Missed.mono {result : EStateM.Result Stop State α}
    {result' : EStateM.Result Stop State β} (h : w.Missed result)
    (hle : complaints result <+: complaints result') : w.Missed result' := by
  obtain ⟨hcondition, hsemicolon, t, ht⟩ := h
  refine ⟨hcondition, hsemicolon, t, ?_⟩
  obtain ⟨more, hmore⟩ := hle
  rw [← hmore]
  cases hall : complaints result with
  | nil => rw [hall] at ht; cases ht
  | cons r rs => rwa [hall] at ht

theorem Site.Missed.of_eq {result : EStateM.Result Stop State α}
    {result' : EStateM.Result Stop State β} (h : w.Missed result)
    (heq : complaints result' = complaints result) : w.Missed result' :=
  ⟨h.condition, h.semicolon, heq ▸ h.complains⟩

theorem Follows.of_error {e : Stop} {s₁ : State} (hrun : rule s = .error e s₁) :
    Follows w stops E rule rule' s s' := by
  intro a s₂ hok
  cases hrun.symm.trans hok

theorem follows_outOfFuel : Follows w stops E (throw .outOfFuel) rule' s s' := .of_error rfl

/-- Only what the rules do from these states matters. -/
theorem Follows.congr {rule₁ : Rule α} {rule₁' : Rule α'} {s₁ s₁' : State}
    (h : Follows w stops E rule₁ rule₁' s₁ s₁') (hrun : rule s = rule₁ s₁)
    (hrun' : rule' s' = rule₁' s₁') : Follows w stops E rule rule' s s' := by
  unfold Follows
  rw [hrun, hrun']
  exact h

theorem Follows.pure {a : α} {a' : α'} (h : E a a' s s') :
    Follows w stops E (pure a) (pure a') s s' := by
  intro b s₁ hrun _
  cases hrun
  exact .inr (.inr ⟨a', s', rfl, h⟩)

/-- What the first text was read as is known behind it. -/
theorem Follows.run (h : Follows w stops E rule rule' s s') :
    Follows w stops (fun a a' s₁ s₁' => E a a' s₁ s₁' ∧ rule s = .ok a s₁ ∧ s₁.reports = #[])
      rule rule' s s' := by
  intro a s₁ hrun hquiet
  refine (h a s₁ hrun hquiet).imp id (Or.imp id ?_)
  rintro ⟨a', s₁', hrun', hE⟩
  exact ⟨a', s₁', hrun', hE, hrun, hquiet⟩

theorem Follows.mono {E' : α → α' → State → State → Prop} (h : Follows w stops E rule rule' s s')
    (himp : ∀ a a' s₁ s₁', E a a' s₁ s₁' → E' a a' s₁ s₁') :
    Follows w stops E' rule rule' s s' := by
  intro a s₁ hrun hquiet
  refine (h a s₁ hrun hquiet).imp id (Or.imp id ?_)
  rintro ⟨a', s₁', hrun', hE⟩
  exact ⟨a', s₁', hrun', himp a a' s₁ s₁' hE⟩

/-- Two rules in sequence, of which it is shown that they only move on. Where the first text cannot
be read on behind the first rule, the second one gives no result. -/
theorem Follows.bind_leading [Leading rule] [Leading rule']
    (h : Follows w stops' E rule rule' s s') (heven : s.Even s')
    (hleading : ∀ a, Leading (next a)) (hleading' : ∀ a, Leading (next' a))
    (hstops : ∀ a s₁ b s₂, stops' s₁ → next a s₁ = .ok b s₂ → stops s₂)
    (hnext : ∀ a a' s₁ s₁', E a a' s₁ s₁' →
      Follows w stops F (next a) (next' a') s₁ s₁') :
    Follows w stops F (rule >>= next) (rule' >>= next') s s' := by
  intro b s₂ hrun hquiet
  simp only [Bind.bind, EStateM.bind] at hrun
  cases hfirst : rule s with
  | error e s₁ => simp only [hfirst, reduceCtorEq] at hrun
  | ok a s₁ =>
    simp only [hfirst] at hrun
    have hnext₁ := hleading a
    have hquiet₁ := Leading.quiet (Leading.proper heven.proper hfirst) hrun hquiet
    rcases h a s₁ hfirst hquiet₁ with hstop | hmissed | ⟨a', s₁', hfirst', hE⟩
    · exact .inl (hstops a s₁ b s₂ hstop hrun)
    · exact .inr (.inl (hmissed.mono (complaints_bind heven.proper')))
    · have hbind : (rule' >>= next') s' = next' a' s₁' := by
        simp only [Bind.bind, EStateM.bind, hfirst']
      rw [hbind]
      exact hnext a a' s₁ s₁' hE b s₂ hrun hquiet

theorem Follows.bind_of [Leading rule] [∀ a, Leading (next a)] [Leading rule']
    [∀ a, Leading (next' a)] (h : Follows w stops' E rule rule' s s') (heven : s.Even s')
    (hstops : ∀ a s₁ b s₂, stops' s₁ → next a s₁ = .ok b s₂ → stops s₂)
    (hnext : ∀ a a' s₁ s₁', E a a' s₁ s₁' →
      Follows w stops F (next a) (next' a') s₁ s₁') :
    Follows w stops F (rule >>= next) (rule' >>= next') s s' :=
  h.bind_leading heven inferInstance inferInstance hstops hnext

/-- Two rules in sequence. -/
theorem Follows.bind [Leading rule] [∀ a, Leading (next a)] [Leading rule']
    [∀ a, Leading (next' a)] (h : Follows w never E rule rule' s s') (heven : s.Even s')
    (hnext : ∀ a a' s₁ s₁', E a a' s₁ s₁' →
      Follows w stops F (next a) (next' a') s₁ s₁') :
    Follows w stops F (rule >>= next) (rule' >>= next') s s' :=
  h.bind_of heven (fun _ _ _ _ => False.elim) hnext

/-- A rule after which both texts are read on side by side, and another one. -/
theorem Follows.joint [Leading rule] [∀ a, Leading (next a)] [Leading rule']
    [∀ a, Leading (next' a)] {A : α → α' → Prop} (h : Follows w never (Joint w A) rule rule' s s')
    (heven : s.Even s') (hnext : ∀ a a' s₁ s₁', A a a' → Side w false s₁ s₁' →
      Follows w stops F (next a) (next' a') s₁ s₁') :
    Follows w stops F (rule >>= next) (rule' >>= next') s s' :=
  h.bind heven fun a a' s₁ s₁' h₁ => hnext a a' s₁ s₁' h₁.1 h₁.2

/-- A rule that may read the semicolon behind the step, and another one. -/
theorem Follows.loose [Leading rule] [∀ a, Leading (next a)] [Leading rule']
    [∀ a, Leading (next' a)] {A : α → α' → Prop} (h : Follows w never (Loose w A) rule rule' s s')
    (heven : s.Even s') (hnext : ∀ a a' s₁ s₁', A a a' → Side w false s₁ s₁' ∨ Taken w s₁ s₁' →
      Follows w stops F (next a) (next' a') s₁ s₁') :
    Follows w stops F (rule >>= next) (rule' >>= next') s s' :=
  h.bind heven fun a a' s₁ s₁' h₁ => hnext a a' s₁ s₁' h₁.1 h₁.2

theorem Follows.map {f : α → β} {f' : α' → β'} (h : Follows w stops E rule rule' s s')
    (himp : ∀ a a' s₁ s₁', E a a' s₁ s₁' → F (f a) (f' a') s₁ s₁') :
    Follows w stops F (f <$> rule) (f' <$> rule') s s' := by
  intro b s₁ hrun hquiet
  simp only [Functor.map, EStateM.map] at hrun
  cases hfirst : rule s with
  | error e s₁ => simp only [hfirst, reduceCtorEq] at hrun
  | ok a s₁ =>
    simp only [hfirst] at hrun
    cases hrun
    refine (h a s₁ hfirst hquiet).imp id (Or.imp (fun hmissed => ?_) ?_)
    · exact hmissed.of_eq (complaints_map f')
    · rintro ⟨a', s₁', hrun', hE⟩
      refine ⟨f' a', s₁', ?_, himp a a' s₁ s₁' hE⟩
      simp only [Functor.map, EStateM.map, hrun']

theorem Follows.ite {c : Prop} [Decidable c] {yes no : Rule α} {yes' no' : Rule α'}
    (hyes : c → Follows w stops E yes yes' s s') (hno : ¬c → Follows w stops E no no' s s') :
    Follows w stops E (if c then yes else no) (if c then yes' else no') s s' := by
  split
  · next hc => exact hyes hc
  · next hc => exact hno hc

/-! ### Small rules -/

theorem follows_peek {next : Kind → Rule β} {next' : Kind → Rule β'} (h : Side w inside s s')
    (hnext : Follows w stops F (next s.next.kind) (next' s.next.kind) s s') :
    Follows w stops F (peekKind >>= next) (peekKind >>= next') s s' := by
  refine hnext.congr rfl ?_
  simp only [Bind.bind, EStateM.bind, peekKind, h.next.1]

theorem follows_check {kind : Kind} {next : Bool → Rule β} {next' : Bool → Rule β'}
    (h : Side w inside s s')
    (hnext : Follows w stops F (next (s.startsWith kind)) (next' (s.startsWith kind)) s s') :
    Follows w stops F (check kind >>= next) (check kind >>= next') s s' := by
  refine hnext.congr rfl ?_
  simp only [Bind.bind, EStateM.bind, check, h.startsWith]

theorem follows_atEnd {next : Bool → Rule β} {next' : Bool → Rule β'} (h : Side w inside s s')
    (hnext : Follows w stops F (next s.atEnd) (next' s.atEnd) s s') :
    Follows w stops F (atEnd >>= next) (atEnd >>= next') s s' := by
  refine hnext.congr rfl ?_
  simp only [Bind.bind, EStateM.bind, atEnd, h.atEnd]

theorem follows_take_of {next : Token → Rule β} {next' : Token → Rule β'}
    (hnext : Follows w stops F (next s.next) (next' s'.next) s.advance s'.advance) :
    Follows w stops F (takeToken >>= next) (takeToken >>= next') s s' :=
  hnext.congr rfl rfl

/-- A token that is not at the place is read. -/
theorem follows_take {kind : Kind} {next : Token → Rule β} {next' : Token → Rule β'}
    (h : Side w true s s') (hkind : s.next.kind = kind)
    (hnext : ∀ t t' s₁ s₁', shapes.ofKind kind t t' → Side w kind.narrows s₁ s₁' →
      Follows w stops F (next t) (next' t') s₁ s₁') :
    Follows w stops F (takeToken >>= next) (takeToken >>= next') s s' := by
  have hadvance := h.advance
  rw [hkind] at hadvance
  exact follows_take_of (hnext _ _ _ _ ⟨h.next, hkind⟩ hadvance)

/-- A token is read with which the place does not start. -/
theorem follows_keyword {kind : Kind} {next : Token → Rule β} {next' : Token → Rule β'}
    (h : Side w inside s s') (hkind : s.next.kind = kind) (hname : kind ≠ .identifier)
    (hvar : kind ≠ .varKw)
    (hnext : ∀ t t' s₁ s₁', shapes.ofKind kind t t' → Side w kind.narrows s₁ s₁' →
      Follows w stops F (next t) (next' t') s₁ s₁') :
    Follows w stops F (takeToken >>= next) (takeToken >>= next') s s' :=
  follows_take (h.inside_of_kind (hkind ▸ hname) (hkind ▸ hvar)) hkind hnext

theorem follows_fail (cause : Cause) : Follows w stops E (fail cause) rule' s s' := .of_error rfl

/-- Where one text has the token that is expected, the other one has it, too. -/
theorem follows_expect_of {kind : Kind} {cause : Cause} {next : Token → Rule β}
    {next' : Token → Rule β'} (hsame : s'.startsWith kind = s.startsWith kind)
    (hnext : s.startsWith kind = true →
      Follows w stops F (next s.next) (next' s'.next) s.advance s'.advance) :
    Follows w stops F (expect kind cause >>= next) (expect kind cause >>= next') s s' := by
  cases hstarts : s.startsWith kind with
  | false =>
    have hfault : (expect kind cause >>= next) s = .error (.fault (.parse s.next cause)) s := by
      simp [Bind.bind, EStateM.bind, expect, hstarts, fail]
    exact .of_error hfault
  | true =>
    refine (hnext hstarts).congr ?_ ?_
    · simp [Bind.bind, EStateM.bind, expect, hstarts]
    · simp [Bind.bind, EStateM.bind, expect, hsame.trans hstarts]

theorem follows_expect {kind : Kind} {cause : Cause} {next : Token → Rule β}
    {next' : Token → Rule β'} (h : Side w inside s s') (hname : kind ≠ .identifier)
    (hvar : kind ≠ .varKw)
    (hnext : ∀ t t' s₁ s₁', shapes.ofKind kind t t' → Side w kind.narrows s₁ s₁' →
      Follows w stops F (next t) (next' t') s₁ s₁') :
    Follows w stops F (expect kind cause >>= next) (expect kind cause >>= next') s s' := by
  refine follows_expect_of (h.startsWith kind) fun hstarts => ?_
  have hkind := kind_next_of_startsWith hstarts
  have hadvance := (h.inside_of_starts hstarts hname hvar).advance
  rw [hkind] at hadvance
  exact hnext _ _ _ _ ⟨h.next, hkind⟩ hadvance

theorem follows_accept_of {kind : Kind} {next : Bool → Rule β} {next' : Bool → Rule β'}
    (hsame : s'.startsWith kind = s.startsWith kind)
    (hyes : s.startsWith kind = true →
      Follows w stops F (next true) (next' true) s.advance s'.advance)
    (hno : s.startsWith kind = false → Follows w stops F (next false) (next' false) s s') :
    Follows w stops F (accept kind >>= next) (accept kind >>= next') s s' := by
  cases hstarts : s.startsWith kind with
  | false =>
    refine (hno hstarts).congr ?_ ?_
    · simp [Bind.bind, EStateM.bind, accept, hstarts]
    · simp [Bind.bind, EStateM.bind, accept, hsame.trans hstarts]
  | true =>
    refine (hyes hstarts).congr ?_ ?_
    · simp [Bind.bind, EStateM.bind, accept, hstarts]
    · simp [Bind.bind, EStateM.bind, accept, hsame.trans hstarts]

theorem follows_accept {kind : Kind} {next : Bool → Rule β} {next' : Bool → Rule β'}
    (h : Side w inside s s') (hname : kind ≠ .identifier) (hvar : kind ≠ .varKw)
    (hnext : ∀ taken s₁ s₁', Side w false s₁ s₁' →
      Follows w stops F (next taken) (next' taken) s₁ s₁') :
    Follows w stops F (accept kind >>= next) (accept kind >>= next') s s' :=
  follows_accept_of (h.startsWith kind)
    (fun hstarts => hnext _ _ _ (h.inside_of_starts hstarts hname hvar).advance.loosen)
    fun _ => hnext _ _ _ h.loosen

theorem follows_acceptToken {among : Kind → Bool} {next : Option Token → Rule β}
    {next' : Option Token → Rule β'} (h : Side w inside s s') (hname : among .identifier = false)
    (hvar : among .varKw = false)
    (hyes : ∀ t t' s₁ s₁', shapes.token t t' → among t.kind = true → Side w t.kind.narrows s₁ s₁' →
      Follows w stops F (next (some t)) (next' (some t')) s₁ s₁')
    (hno : Follows w stops F (next none) (next' none) s s') :
    Follows w stops F (acceptToken? among >>= next) (acceptToken? among >>= next') s s' := by
  have hhead := h.head
  cases hrest : s.rest with
  | nil =>
    cases hrest' : s'.rest with
    | nil =>
      refine hno.congr ?_ ?_
      · simp [Bind.bind, EStateM.bind, acceptToken?, hrest]
      · simp [Bind.bind, EStateM.bind, acceptToken?, hrest']
    | cons => rw [hrest, hrest'] at hhead; cases hhead
  | cons t rest =>
    cases hrest' : s'.rest with
    | nil => rw [hrest, hrest'] at hhead; cases hhead
    | cons t' rest' =>
      rw [hrest, hrest'] at hhead
      cases hhead with
      | some hlike =>
        cases hamong : among t.kind with
        | false =>
          refine hno.congr ?_ ?_
          · simp [Bind.bind, EStateM.bind, acceptToken?, hrest, hamong]
          · simp [Bind.bind, EStateM.bind, acceptToken?, hrest', hlike.1, hamong]
        | true =>
          have hnext : s.next = t := State.next_of_rest hrest
          have hinside : Side w true s s' := by
            refine h.inside_of_kind (fun hkind => ?_) fun hkind => ?_
            · rw [← hnext, hkind, hname] at hamong
              cases hamong
            · rw [← hnext, hkind, hvar] at hamong
              cases hamong
          have hadvance := hinside.advance
          rw [hnext] at hadvance
          refine (hyes t t' s.advance s'.advance hlike hamong hadvance).congr ?_ ?_
          · simp [Bind.bind, EStateM.bind, acceptToken?, hrest, hamong]
          · simp [Bind.bind, EStateM.bind, acceptToken?, hrest', hlike.1, hamong]

theorem follows_fresh {next : Nat → Rule β} {next' : Nat → Rule β'} (h : Side w inside s s')
    (hnext : ∀ id id' s₁ s₁', Side w inside s₁ s₁' →
      Follows w stops F (next id) (next' id') s₁ s₁') :
    Follows w stops F (freshId >>= next) (freshId >>= next') s s' := by
  have hnumbered := h.numbered (s.nextId + 1)
  rw [← h.nextId] at hnumbered
  refine (hnext s.nextId s'.nextId _ _ ?_).congr rfl rfl
  rw [h.nextId] at hnumbered ⊢
  exact hnumbered

/-- A rule that has complained does not end without a complaint. -/
theorem follows_complaint {complaint : Rule Unit} {next : Unit → Rule β} [Leading (next ())]
    {rule' : Rule β'} (hs : s.Proper) {r : Report} (hrun : complaint s = .ok () (s.report r)) :
    Follows w stops F (complaint >>= next) rule' s s' := by
  intro b s₂ hok hquiet
  simp only [Bind.bind, EStateM.bind, hrun] at hok
  have hquiet₁ := Leading.quiet (s := s.report r) hs hok hquiet
  simp [State.report] at hquiet₁

theorem bind_eq_ok {b : β} {s₂ : State} (h : (rule >>= next) s = .ok b s₂) :
    ∃ a s₁, rule s = .ok a s₁ ∧ next a s₁ = .ok b s₂ := by
  simp only [Bind.bind, EStateM.bind] at h
  cases hrun : rule s with
  | error e s₁ => simp only [hrun, reduceCtorEq] at h
  | ok a s₁ =>
    simp only [hrun] at h
    exact ⟨a, s₁, rfl, h⟩

theorem startsWith_of_expect {kind : Kind} {cause : Cause} {t : Token} {s₁ : State}
    (h : expect kind cause s = .ok t s₁) : s.startsWith kind = true := by
  unfold expect at h
  split at h
  · next hstarts => exact hstarts
  · cases h

/-- Only one token is read next. -/
theorem kind_eq_of_startsWith {kind kind' : Kind} (h : s.startsWith kind = true)
    (h' : s.startsWith kind' = true) : kind = kind' :=
  (kind_next_of_startsWith h).symm.trans (kind_next_of_startsWith h')

theorem not_expect_of_facing {kind kind' : Kind} {cause : Cause} {next : Token → Rule β} {b : β}
    {s₂ : State} (h : facing kind s) (hne : kind ≠ kind') :
    (expect kind' cause >>= next) s ≠ .ok b s₂ := by
  intro hrun
  obtain ⟨t, s₁, hexpect, -⟩ := bind_eq_ok hrun
  exact hne (kind_eq_of_startsWith h (startsWith_of_expect hexpect))

/-- A name is read, in front of the place or behind it. -/
theorem follows_name_inside {cause : Cause} {next : Token → Rule β} {next' : Token → Rule β'}
    (h : Side w true s s')
    (hnext : ∀ t t' s₁ s₁', shapes.ofKind .identifier t t' → Side w false s₁ s₁' →
      Follows w stops F (next t) (next' t') s₁ s₁') :
    Follows w stops F (expect .identifier cause >>= next) (expect .identifier cause >>= next')
      s s' :=
  follows_expect_of (h.startsWith _) fun hstarts =>
    hnext _ _ _ _ ⟨h.next, kind_next_of_startsWith hstarts⟩ h.advance.loosen

/-- A name is read. If it is the first token at the place, then `=` follows in the first text. -/
theorem follows_name {cause : Cause} {next : Token → Rule β} {next' : Token → Rule β'}
    (h : Side w inside s s')
    (hstops : ∀ t s₁ b s₂, facing .equal s₁ → next t s₁ = .ok b s₂ → stops s₂)
    (hnext : ∀ t t' s₁ s₁', shapes.ofKind .identifier t t' → Side w false s₁ s₁' →
      Follows w stops F (next t) (next' t') s₁ s₁') :
    Follows w stops F (expect .identifier cause >>= next) (expect .identifier cause >>= next')
      s s' := by
  rcases h.inside_or_here with hinside | ⟨hrest, -⟩
  · exact follows_name_inside hinside hnext
  · intro b s₂ hrun _
    obtain ⟨t, s₁, hexpect, hrun₁⟩ := bind_eq_ok hrun
    refine .inl (hstops t s₁ b s₂ ?_ hrun₁)
    have hstarts := startsWith_of_expect hexpect
    have hs₁ : s₁ = s.advance := by
      simp only [expect, hstarts, if_true] at hexpect
      cases hexpect
      rfl
    rcases w.front_cases with ⟨hwhole, -⟩ | ⟨_, _, _, hkeyword, -, -, hwhole, -⟩
    · have hadvance : s.advance.rest = w.equals :: [w.name, w.operator, w.one] ++ w.after :=
        State.rest_advance (hrest.trans hwhole)
      rw [facing, hs₁, State.startsWith, hadvance]
      simp [w.equals_kind]
    · have hkind := kind_next_of_startsWith hstarts
      rw [State.next_of_rest (hrest.trans hwhole), hkeyword] at hkind
      cases hkind

/-- Behind a loose end only the semicolon can be read. -/
theorem follows_expect_loose {kind : Kind} {cause : Cause} {next : Token → Rule β}
    {next' : Token → Rule β'} (h : Side w false s s' ∨ Taken w s s') (hname : kind ≠ .identifier)
    (hvar : kind ≠ .varKw) (hsemicolon : kind ≠ .semicolon)
    (hnext : ∀ t t' s₁ s₁', shapes.ofKind kind t t' → Side w kind.narrows s₁ s₁' →
      Follows w stops F (next t) (next' t') s₁ s₁') :
    Follows w stops F (expect kind cause >>= next) (expect kind cause >>= next') s s' := by
  rcases h with hside | htaken
  · exact follows_expect hside hname hvar hnext
  · intro b s₂ hrun _
    exact absurd hrun (not_expect_of_facing htaken.starts hsemicolon.symm)

/-- The end of a statement. Where the semicolon behind the step is read, it is done. -/
theorem follows_terminate {value? value?' : Option Expr} (cause : Cause)
    (h : Side w false s s' ∨ Taken w s s') (hvalue : Option.Rel shapes.expr value? value?') :
    Follows w never (Joint w fun _ _ => True) (terminate value? cause) (terminate value?' cause)
      s s' := by
  have hlambda : value?'.any Expr.isLambda = value?.any Expr.isLambda := by
    cases hvalue with
    | none => rfl
    | some he => cases he [] <;> rfl
  unfold terminate
  rcases h with hside | htaken
  · have hrest : Follows w never (Joint w fun _ _ => True)
        (if s.last.any (·.kind = .semicolon) then return ()
          else if value?.any Expr.isLambda then do let _ ← accept .semicolon
          else do let _ ← expect .semicolon cause)
        (if s.last.any (·.kind = .semicolon) then return ()
          else if value?.any Expr.isLambda then do let _ ← accept .semicolon
          else do let _ ← expect .semicolon cause) s s' := by
      refine .ite (fun _ => .pure ⟨trivial, hside⟩) fun _ => .ite (fun _ => ?_) fun _ => ?_
      · exact follows_accept hside (by decide) (by decide) fun _ _ _ h₁ => .pure ⟨trivial, h₁⟩
      · exact follows_expect hside (by decide) (by decide) fun _ _ _ _ _ h₁ => .pure ⟨trivial, h₁⟩
    refine hrest.congr rfl ?_
    rw [get_bind_apply, hside.last, hlambda]
  · have hdone : s'.last.any (·.kind = .semicolon) = true := by
      rw [htaken.side.last]
      obtain ⟨t, rest, hrest, hkind⟩ := State.exists_rest_of_startsWith htaken.starts
      simp [State.advance, hrest, hkind]
    have hrest : Follows w never (Joint w fun _ _ => True)
        (if value?.any Expr.isLambda then do let _ ← accept .semicolon
          else do let _ ← expect .semicolon cause) (return ()) s s' := by
      intro b s₁ hrun _
      have hs₁ : s₁ = s.advance := by
        split at hrun
        · simp only [Bind.bind, EStateM.bind, accept, htaken.starts, if_true] at hrun
          cases hrun
          rfl
        · simp only [Bind.bind, EStateM.bind, expect, htaken.starts, if_true] at hrun
          cases hrun
          rfl
      exact .inr (.inr ⟨(), s', rfl, trivial, hs₁ ▸ htaken.side⟩)
    refine hrest.congr ?_ ?_
    · rw [get_bind_apply, htaken.goesOn]
      rfl
    · rw [get_bind_apply, hdone]
      rfl

theorem follows_withLoops {loops : Nat → Nat} {A : α → α' → Prop} (h : Side w inside s s')
    (hrule : ∀ s₁ s₁', Side w inside s₁ s₁' → Follows w never (Joint w A) rule rule' s₁ s₁') :
    Follows w never (Joint w A) (withLoops loops rule) (withLoops loops rule') s s' := by
  intro a s₁ hrun hquiet
  have hinner := hrule _ _ (h.inLoops (loops s.loops))
  rw [withLoops] at hrun
  cases hfirst : rule { s with loops := loops s.loops } with
  | error e s₂ => simp only [hfirst, reduceCtorEq] at hrun
  | ok b s₂ =>
    simp only [hfirst] at hrun
    cases hrun
    rcases hinner a s₂ hfirst hquiet with hstop | hmissed | ⟨a', s₂', hfirst', hlike, hside⟩
    · exact hstop.elim
    · exact .inr (.inl (hmissed.of_eq (by rw [complaints_withLoops, h.loops])))
    · refine .inr (.inr ⟨a', { s₂' with loops := s'.loops }, ?_, hlike, ?_⟩)
      · rw [withLoops, h.loops, hfirst']
      · rw [h.loops]
        exact hside.inLoops s.loops

/-- A fault in the first text is complained about. -/
theorem follows_recover {A : α → α' → Prop}
    (h : Follows w never (Joint w A) rule rule' s s') :
    Follows w never (Joint w (Option.Rel A)) (recover rule) (recover rule') s s' := by
  intro a? s₁ hrun hquiet
  rw [recover] at hrun
  split at hrun
  · next a s₂ hfirst =>
    cases hrun
    rcases h a s₁ hfirst hquiet with hstop | hmissed | ⟨a', s₁', hfirst', hlike, hside⟩
    · exact hstop.elim
    · exact .inr (.inl (hmissed.of_eq complaints_recover))
    · exact .inr (.inr ⟨some a', s₁', by rw [recover, hfirst'], .some hlike, hside⟩)
  · next r s₂ hfirst =>
    cases hrun
    have hkept := (s₂.report r).leads_synchronize.kept
    rw [hquiet] at hkept
    simp [State.report] at hkept
  · cases hrun

end Follows

end Parser

end Roteiro
