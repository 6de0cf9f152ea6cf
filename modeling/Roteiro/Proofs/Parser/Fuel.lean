import Roteiro.Proofs.Parser.Soundness
import Roteiro.Proofs.Parser.Taking

/-!
# Fuel

The rules of the parser run on fuel, but fuel never decides what they do. Every rule that calls
another one has either read a token before or calls one of a lower rank, so an amount that is
measured against the tokens left is always enough, and more of it makes no difference. What makes
this work on malformed tokens is that recovery reads on: a declaration that stops at a fault is
followed by at least one token that is skipped.

`Settles rule rule' s Post` says of two runs of a rule that they are the same and do not end for
want of fuel. It is shown with any two amounts that are enough in the place of the two runs.

* `rulesSettle`: every rule settles, with an amount of fuel that depends on its rank.
* `declarations_fuel`: the fuel for some tokens is enough for a program, and as good as any more.
-/

namespace Roteiro

namespace Parser

/-- A run has come to a result, for which `Post` holds, or to a fault. Either way it has only read
on. -/
inductive Rests {α : Type} (s : State) (Post : α → State → Prop) :
    EStateM.Result Stop State α → Prop
  | ok {a : α} {s₁ : State} (ending : s₁.ending = s.ending)
      (le : s₁.rest.length ≤ s.rest.length) (post : Post a s₁) : Rests s Post (.ok a s₁)
  | fault {r : Report} {s₁ : State} (ending : s₁.ending = s.ending)
      (le : s₁.rest.length ≤ s.rest.length) : Rests s Post (.error (.fault r) s₁)

/-- Two runs from one state are the same, and have not run out of fuel. -/
structure Settles {α : Type} (rule rule' : Rule α) (s : State) (Post : α → State → Prop) :
    Prop where
  same : rule' s = rule s
  rests : Rests s Post (rule s)

/-- Some token was read. -/
def Moves {α : Type} (s : State) (_ : α) (s₁ : State) : Prop := s₁.rest.length < s.rest.length

/-- Nothing more is known. -/
def Ends {α : Type} (_ : α) (_ : State) : Prop := True

section Settles

variable {α β : Type} {rule rule' : Rule α} {next next' : α → Rule β} {s s₁ : State}
  {Post Post' : α → State → Prop} {Q : β → State → Prop} {result : EStateM.Result Stop State α}

theorem Rests.mono (h : Rests s Post result)
    (himp : ∀ a s₁, s₁.rest.length ≤ s.rest.length → Post a s₁ → Post' a s₁) :
    Rests s Post' result := by
  cases h with
  | ok hending hle hpost => exact .ok hending hle (himp _ _ hle hpost)
  | fault hending hle => exact .fault hending hle

/-- A run that goes on from a later state. -/
theorem Rests.trans (h : Rests s₁ Post result) (hending : s₁.ending = s.ending)
    (hle : s₁.rest.length ≤ s.rest.length) : Rests s Post result := by
  cases h with
  | ok hending' hle' hpost => exact .ok (hending'.trans hending) (Nat.le_trans hle' hle) hpost
  | fault hending' hle' => exact .fault (hending'.trans hending) (Nat.le_trans hle' hle)

theorem Settles.mono (h : Settles rule rule' s Post)
    (himp : ∀ a s₁, s₁.rest.length ≤ s.rest.length → Post a s₁ → Post' a s₁) :
    Settles rule rule' s Post' :=
  ⟨h.same, h.rests.mono himp⟩

theorem Settles.ends (h : Settles rule rule' s Post) : Settles rule rule' s Ends :=
  h.mono fun _ _ _ _ => trivial

/-- Behind a token that was read, every result is. -/
theorem Settles.moves (h : Settles rule rule' s₁ Post)
    (hmoves : s₁.rest.length < s.rest.length) : Settles rule rule' s₁ (Moves s) :=
  h.mono fun _ _ hle _ => Nat.lt_of_le_of_lt hle hmoves

/-- Two rules in sequence. -/
theorem Settles.bind (h : Settles rule rule' s Post) (hs : s.Proper)
    (hnext : ∀ a s₁, s₁.Proper → s₁.rest.length ≤ s.rest.length → Post a s₁ →
      Settles (next a) (next' a) s₁ Q) : Settles (rule >>= next) (rule' >>= next') s Q := by
  have hrests := h.rests
  cases hrun : rule s with
  | error e s₁ =>
    rw [hrun] at hrests
    have hbind : (rule >>= next) s = .error e s₁ := by simp only [Bind.bind, EStateM.bind, hrun]
    refine ⟨?_, ?_⟩
    · simp only [Bind.bind, EStateM.bind, h.same, hrun]
    · rw [hbind]
      cases hrests with
      | fault hending hle => exact .fault hending hle
  | ok a s₁ =>
    rw [hrun] at hrests
    have hbind : (rule >>= next) s = next a s₁ := by simp only [Bind.bind, EStateM.bind, hrun]
    cases hrests with
    | ok hending hle hpost =>
      have hs₁ : s₁.Proper := by rw [State.Proper, hending]; exact hs
      have hsettles := hnext a s₁ hs₁ hle hpost
      refine ⟨?_, ?_⟩
      · rw [hbind, ← hsettles.same]
        simp only [Bind.bind, EStateM.bind, h.same, hrun]
      · rw [hbind]
        exact hsettles.rests.trans hending hle

theorem Settles.pure {a : α} (h : Post a s) : Settles (pure a) (pure a) s Post :=
  ⟨rfl, .ok rfl (Nat.le_refl _) h⟩

theorem Settles.map {f : α → β} (h : Settles rule rule' s fun a s₁ => Q (f a) s₁) :
    Settles (f <$> rule) (f <$> rule') s Q := by
  have hrests := h.rests
  refine ⟨by simp only [Functor.map, EStateM.map, h.same], ?_⟩
  simp only [Functor.map, EStateM.map]
  generalize rule s = result at hrests ⊢
  cases hrests with
  | ok hending hle hpost => exact .ok hending hle hpost
  | fault hending hle => exact .fault hending hle

theorem Settles.ite {c : Prop} [Decidable c] {yes yes' no no' : Rule α}
    (hyes : c → Settles yes yes' s Post) (hno : ¬c → Settles no no' s Post) :
    Settles (if c then yes else no) (if c then yes' else no') s Post := by
  split
  · next hc => exact hyes hc
  · next hc => exact hno hc

/-! ### Rules that only look -/

theorem Settles.peek {f f' : Kind → Rule β} (h : Settles (f s.next.kind) (f' s.next.kind) s Q) :
    Settles (peekKind >>= f) (peekKind >>= f') s Q := ⟨h.same, h.rests⟩

theorem Settles.check {kind : Kind} {f f' : Bool → Rule β}
    (h : Settles (f (s.startsWith kind)) (f' (s.startsWith kind)) s Q) :
    Settles (Parser.check kind >>= f) (Parser.check kind >>= f') s Q := ⟨h.same, h.rests⟩

theorem Settles.atEnd {f f' : Bool → Rule β} (h : Settles (f s.atEnd) (f' s.atEnd) s Q) :
    Settles (Parser.atEnd >>= f) (Parser.atEnd >>= f') s Q := ⟨h.same, h.rests⟩

theorem Settles.get {f f' : State → Rule β} (h : Settles (f s) (f' s) s Q) :
    Settles (get >>= f) (get >>= f') s Q := ⟨h.same, h.rests⟩

/-! ### Small rules -/

theorem rests_advance {a : α} (h : Post a s.advance) : Rests s Post (.ok a s.advance) :=
  .ok s.leads_advance.ending s.leads_advance.rest.length_le h

theorem length_advance (h : s.rest ≠ []) : s.advance.rest.length < s.rest.length := by
  have hlength := s.advance_rest_length (by simp [State.atEnd, h])
  omega

theorem length_advance_of_startsWith {kind : Kind} (h : s.startsWith kind = true) :
    s.advance.rest.length < s.rest.length := by
  obtain ⟨t, rest, hrest, -⟩ := State.exists_rest_of_startsWith h
  exact length_advance (by rw [hrest]; exact List.cons_ne_nil t rest)

theorem settles_fail (cause : Cause) : Settles (fail cause : Rule α) (fail cause) s Post :=
  ⟨rfl, .fault rfl (Nat.le_refl _)⟩

theorem settles_expect (kind : Kind) (cause : Cause) :
    Settles (expect kind cause) (expect kind cause) s (Moves s) := by
  refine ⟨rfl, ?_⟩
  rw [expect]
  split
  · next hstarts => exact rests_advance (length_advance_of_startsWith hstarts)
  · exact (settles_fail cause).rests

theorem settles_accept (kind : Kind) :
    Settles (accept kind) (accept kind) s fun taken s₁ => taken = true → Moves s taken s₁ := by
  refine ⟨rfl, ?_⟩
  rw [accept]
  split
  · next hstarts => exact rests_advance fun _ => length_advance_of_startsWith hstarts
  · exact .ok rfl (Nat.le_refl _) fun htaken => Bool.noConfusion htaken

theorem settles_acceptToken? (among : Kind → Bool) :
    Settles (acceptToken? among) (acceptToken? among) s fun taken? s₁ =>
      taken?.isSome = true → Moves s taken? s₁ := by
  refine ⟨rfl, ?_⟩
  rw [acceptToken?]
  split
  · next t rest hrest =>
    split
    · exact rests_advance fun _ => length_advance (by rw [hrest]; exact List.cons_ne_nil t rest)
    · exact .ok rfl (Nat.le_refl _) fun htaken => Bool.noConfusion htaken
  · exact .ok rfl (Nat.le_refl _) fun htaken => Bool.noConfusion htaken

theorem settles_takeToken (hs : s.Proper) (h : s.next.kind ≠ .endOfInput) :
    Settles takeToken takeToken s (Moves s) := by
  obtain ⟨t, rest, hrest, -⟩ := State.exists_rest_of_next hs h
  exact ⟨rfl, rests_advance (length_advance (by rw [hrest]; exact List.cons_ne_nil t rest))⟩

theorem settles_complain (t : Token) (cause : Cause) :
    Settles (complain t cause) (complain t cause) s Ends :=
  ⟨rfl, .ok rfl (Nat.le_refl _) trivial⟩

theorem settles_complainNext (cause : Cause) :
    Settles (complainNext cause) (complainNext cause) s Ends :=
  ⟨rfl, .ok rfl (Nat.le_refl _) trivial⟩

theorem settles_freshId : Settles freshId freshId s Ends := ⟨rfl, .ok rfl (Nat.le_refl _) trivial⟩

theorem settles_withLoops {loops : Nat → Nat}
    (h : Settles rule rule' { s with loops := loops s.loops } Ends) :
    Settles (withLoops loops rule) (withLoops loops rule') s Ends := by
  have hrests := h.rests
  refine ⟨by rw [withLoops, withLoops, h.same], ?_⟩
  rw [withLoops]
  generalize rule { s with loops := loops s.loops } = result at hrests ⊢
  cases hrests with
  | ok hending hle _ => exact .ok hending hle trivial
  | fault hending hle => exact .fault hending hle

/-- Recovery skips the token at fault. -/
theorem length_synchronize (h : s.rest ≠ []) : s.synchronize.rest.length < s.rest.length := by
  unfold State.synchronize
  cases hrest : s.rest with
  | nil => exact absurd hrest h
  | cons t rest => exact Nat.lt_succ_of_le (resume_length_le t rest)

/-- A rule that reads on to its result reads on also where it recovers. -/
theorem settles_recover (h : Settles rule rule' s (Moves s)) (hrest : s.rest ≠ []) :
    Settles (recover rule) (recover rule') s (Moves s) := by
  have hrests := h.rests
  refine ⟨by rw [recover, recover, h.same], ?_⟩
  rw [recover]
  generalize rule s = result at hrests ⊢
  cases hrests with
  | ok hending hle hmoves => exact .ok hending hle hmoves
  | @fault r s₁ hending hle =>
    have hmoves : (s₁.report r).synchronize.rest.length < s.rest.length := by
      by_cases hempty : s₁.rest = []
      · have hsync : (s₁.report r).synchronize.rest.length ≤ s₁.rest.length :=
          State.synchronize_rest_length_le _
        have hpos := List.length_pos_iff.mpr hrest
        rw [hempty, List.length_nil] at hsync
        omega
      · have hempty' : (s₁.report r).rest ≠ [] := hempty
        exact Nat.lt_of_lt_of_le (length_synchronize hempty') hle
    exact .ok ((s₁.report r).leads_synchronize.ending.trans hending) (Nat.le_of_lt hmoves) hmoves

end Settles

/-! ### Rules without a circle -/

section Rules

variable {s : State} {n m : Nat}

theorem settles_parameterList (count : Nat) (hs : s.Proper) (hn : s.rest.length < n)
    (hm : s.rest.length < m) :
    Settles (parameterList n count) (parameterList m count) s Ends := by
  induction n generalizing m count s with
  | zero => exact absurd hn (Nat.not_lt_zero _)
  | succ n ih =>
    obtain ⟨m, rfl⟩ : ∃ k, m = k + 1 := ⟨m - 1, by omega⟩
    have hlist : ∀ s₁ : State, s₁.Proper → s₁.rest.length ≤ s.rest.length →
        Settles (do
          let name ← expect .identifier .expectedParameterName
          if ← accept .comma then
            let names ← parameterList n (count + 1)
            return name :: names
          else return [name]) (do
          let name ← expect .identifier .expectedParameterName
          if ← accept .comma then
            let names ← parameterList m (count + 1)
            return name :: names
          else return [name]) s₁ Ends := by
      intro s₁ hs₁ h₁
      refine (settles_expect _ _).bind hs₁ fun name s₂ hs₂ _ hname => ?_
      refine (settles_accept _).bind hs₂ fun taken s₃ hs₃ h₃ _ => ?_
      unfold Moves at hname
      refine .ite (fun _ => ?_) fun _ => .pure trivial
      exact (ih _ hs₃ (by omega) (by omega)).bind hs₃ fun _ _ _ _ _ => .pure trivial
    unfold parameterList
    refine .ite (fun _ => ?_) fun _ => hlist s hs (Nat.le_refl _)
    exact (settles_complainNext _).bind hs fun _ s₁ hs₁ h₁ _ => hlist s₁ hs₁ h₁

theorem settles_parameters (hs : s.Proper) (hn : s.rest.length < n) (hm : s.rest.length < m) :
    Settles (parameters n) (parameters m) s Ends := by
  unfold parameters
  exact .check (.ite (fun _ => .pure trivial) fun _ => settles_parameterList 0 hs hn hm)

theorem settles_terminate (value? : Option Expr) (cause : Cause) (hs : s.Proper) :
    Settles (terminate value? cause) (terminate value? cause) s Ends := by
  unfold terminate
  refine .get (.ite (fun _ => .pure trivial) fun _ => .ite (fun _ => ?_) fun _ => ?_)
  · exact (settles_accept _).bind hs fun _ _ _ _ _ => .pure trivial
  · exact (settles_expect _ _).bind hs fun _ _ _ _ _ => .pure trivial

/-- A step is a name and a sign, so it is never spelled by nothing. -/
theorem settles_countingStep (hs : s.Proper) (h : s.startsStep = true) :
    Settles countingStep countingStep s (Moves s) := by
  have hkind : s.next.kind ≠ .endOfInput := by
    unfold State.startsStep at h
    split at h
    · next name step rest hrest =>
      simp only [Bool.and_eq_true, decide_eq_true_eq] at h
      rw [State.next_of_rest hrest, h.1]
      decide
    · cases h
  unfold countingStep
  refine (settles_takeToken hs hkind).bind hs fun name s₁ hs₁ _ hname => ?_
  have hstep : Settles takeToken takeToken s₁ Ends :=
    ⟨rfl, .ok s₁.leads_advance.ending s₁.leads_advance.rest.length_le trivial⟩
  refine hstep.bind hs₁ fun step s₂ hs₂ h₂ _ => ?_
  refine (settles_accept _).bind hs₂ fun _ s₃ hs₃ h₃ _ => ?_
  refine settles_freshId.bind hs₃ fun readId s₄ hs₄ h₄ _ => ?_
  refine settles_freshId.bind hs₄ fun assignId s₅ hs₅ h₅ _ => .pure ?_
  unfold Moves at hname ⊢
  omega

theorem settles_loopExit (keyword : Token) (cause : Cause) (build : Token → Stmt)
    (hs : s.Proper) :
    Settles (loopExit keyword cause build) (loopExit keyword cause build) s Ends := by
  have hend : ∀ s₁ : State, s₁.Proper → Settles (do
      let _ ← expect .semicolon .expectedExitEnd
      return build keyword) (do
      let _ ← expect .semicolon .expectedExitEnd
      return build keyword) s₁ Ends := fun s₁ hs₁ =>
    (settles_expect _ _).bind hs₁ fun _ _ _ _ _ => .pure trivial
  unfold loopExit
  refine .get (.ite (fun _ => ?_) fun _ => hend s hs)
  exact (settles_complain _ _).bind hs fun _ s₁ hs₁ _ _ => hend s₁ hs₁

end Rules

/-! ### Rules in a circle -/

/-- Any two amounts of fuel from `b` on are the same to a rule of this rank, if `b` is enough for
the tokens left. -/
structure Settled {α : Type} (rule : Nat → Rule α) (rank b : Nat)
    (Post : State → α → State → Prop) : Prop where
  run : ∀ {n m s}, b ≤ n → b ≤ m → s.Proper → 32 * s.rest.length + rank < b →
    Settles (rule n) (rule m) s (Post s)

/-- The rules settle if `b` is enough fuel for them. Those that are called only behind a token they
have read have the lowest rank. -/
structure RulesSettle (b : Nat) : Prop where
  declarations : ∀ inBlock, Settled (declarations · inBlock) 20 b fun _ => Ends
  declaration : Settled declaration 19 b Moves
  methodList : Settled methodList 0 b fun _ => Ends
  functionRest : ∀ name, Settled (functionRest · name) 0 b fun _ => Ends
  variableRest : Settled variableRest 0 b fun _ => Ends
  block : Settled block 21 b fun _ => Ends
  statement : Settled statement 18 b Moves
  expressionStatement : Settled expressionStatement 17 b Moves
  countedLoop : Settled countedLoop 0 b fun _ => Ends
  loopStart : Settled loopStart 18 b fun _ => Ends
  optionalExpression : ∀ closing, Settled (optionalExpression · closing) 17 b fun _ => Ends
  expression : Settled expression 16 b Moves
  lambda : Settled lambda 1 b Moves
  assignment : Settled assignment 15 b Moves
  conditional : Settled conditional 14 b Moves
  level : ∀ l, Settled (level · l) (l.rank + 1) b Moves
  levelRest : ∀ l left, Settled (levelRest · l left) 0 b fun _ => Ends
  operand : ∀ l, Settled (operand · l) l.rank b Moves
  unary : Settled unary 1 b Moves
  suffixes : ∀ value, Settled (suffixes · value) 0 b fun _ => Ends
  expressions : ∀ closing limited, Settled (expressions · closing limited) 18 b fun _ => Ends
  expressionList : ∀ limited count, Settled (expressionList · limited count) 17 b fun _ => Ends
  primary : Settled primary 0 b Moves

namespace RulesSettle

variable {b n m : Nat} {s : State} (ih : RulesSettle b) (hn : b ≤ n) (hm : b ≤ m) (hs : s.Proper)

include ih hn hm hs

theorem declarations_settle (inBlock : Bool) (hb : 32 * s.rest.length + 20 < b + 1) :
    Settles (Parser.declarations (n + 1) inBlock) (Parser.declarations (m + 1) inBlock) s Ends := by
  unfold Parser.declarations
  refine .atEnd (.ite (fun _ => .pure trivial) fun hend => ?_)
  refine .check (.ite (fun _ => .pure trivial) fun _ => ?_)
  have hrest : s.rest ≠ [] := by simpa [State.atEnd] using hend
  have hfirst := settles_recover (ih.declaration.run hn hm hs (by omega)) hrest
  refine hfirst.bind hs fun first? s₁ hs₁ _ hmoves => ?_
  unfold Moves at hmoves
  exact ((ih.declarations inBlock).run hn hm hs₁ (by omega)).bind hs₁ fun _ _ _ _ _ => .pure trivial

theorem methodList_settle (hb : 32 * s.rest.length + 0 < b + 1) :
    Settles (Parser.methodList (n + 1)) (Parser.methodList (m + 1)) s Ends := by
  unfold Parser.methodList
  refine .atEnd (.ite (fun _ => .pure trivial) fun _ => ?_)
  refine .check (.ite (fun _ => .pure trivial) fun _ => ?_)
  refine (settles_accept _).bind hs fun _ s₁ hs₁ h₁ _ => ?_
  refine (settles_expect _ _).bind hs₁ fun name s₂ hs₂ _ hname => ?_
  unfold Moves at hname
  refine ((ih.functionRest name).run hn hm hs₂ (by omega)).bind hs₂ fun method s₃ hs₃ h₃ _ => ?_
  exact (ih.methodList.run hn hm hs₃ (by omega)).bind hs₃ fun _ _ _ _ _ => .pure trivial

theorem functionBody_settle (hb : 32 * s.rest.length + 21 < b) :
    Settles (withLoops (fun _ => 0) (Parser.block n)) (withLoops (fun _ => 0) (Parser.block m)) s
      Ends :=
  settles_withLoops (ih.block.run (s := { s with loops := 0 }) hn hm hs hb)

theorem loopBody_settle (hb : 32 * s.rest.length + 18 < b) :
    Settles (withLoops (· + 1) (Parser.statement n)) (withLoops (· + 1) (Parser.statement m)) s
      Ends :=
  settles_withLoops (ih.statement.run (s := { s with loops := s.loops + 1 }) hn hm hs hb).ends

theorem functionRest_settle (name : Token) (hb : 32 * s.rest.length + 0 < b + 1) :
    Settles (Parser.functionRest (n + 1) name) (Parser.functionRest (m + 1) name) s Ends := by
  unfold Parser.functionRest
  refine (settles_expect _ _).bind hs fun _ s₁ hs₁ _ hopen => ?_
  unfold Moves at hopen
  refine (settles_parameters hs₁ (by omega) (by omega)).bind hs₁ fun params s₂ hs₂ h₂ _ => ?_
  refine (settles_expect _ _).bind hs₂ fun _ s₃ hs₃ h₃ _ => ?_
  refine (settles_expect _ _).bind hs₃ fun _ s₄ hs₄ h₄ _ => ?_
  exact (ih.functionBody_settle hn hm hs₄ (by omega)).bind hs₄ fun _ _ _ _ _ => .pure trivial

theorem declaration_settle (hb : 32 * s.rest.length + 19 < b + 1) :
    Settles (Parser.declaration (n + 1)) (Parser.declaration (m + 1)) s (Moves s) := by
  unfold Parser.declaration
  refine .peek ?_
  split
  · next hkind =>
    refine (settles_takeToken hs (by simp [hkind])).bind hs fun _ s₁ hs₁ _ hkeyword => ?_
    refine (settles_expect _ _).bind hs₁ fun name s₂ hs₂ h₂ _ => ?_
    refine (settles_expect _ _).bind hs₂ fun _ s₃ hs₃ h₃ _ => ?_
    unfold Moves at hkeyword
    refine (ih.methodList.run hn hm hs₃ (by omega)).bind hs₃ fun methods s₄ hs₄ h₄ _ => ?_
    refine (settles_expect _ _).bind hs₄ fun _ s₅ _ h₅ _ => .pure ?_
    unfold Moves
    omega
  · next hkind =>
    refine (settles_takeToken hs (by simp [hkind])).bind hs fun _ s₁ hs₁ _ hkeyword => ?_
    refine (settles_expect _ _).bind hs₁ fun name s₂ hs₂ h₂ _ => ?_
    unfold Moves at hkeyword
    refine ((ih.functionRest name).run hn hm hs₂ (by omega)).bind hs₂ fun decl s₃ _ h₃ _ => .pure ?_
    unfold Moves
    omega
  · next hkind =>
    refine (settles_takeToken hs (by simp [hkind])).bind hs fun _ s₁ hs₁ _ hkeyword => ?_
    unfold Moves at hkeyword
    exact (ih.variableRest.run hn hm hs₁ (by omega)).moves hkeyword
  · exact ih.statement.run hn hm hs (by omega)

theorem variableRest_settle (hb : 32 * s.rest.length + 0 < b + 1) :
    Settles (Parser.variableRest (n + 1)) (Parser.variableRest (m + 1)) s Ends := by
  unfold Parser.variableRest
  refine (settles_expect _ _).bind hs fun name s₁ hs₁ _ hname => ?_
  refine (settles_accept _).bind hs₁ fun taken s₂ hs₂ h₂ _ => ?_
  unfold Moves at hname
  refine .ite (fun _ => ?_) fun _ => ?_
  · refine (ih.expression.run hn hm hs₂ (by omega)).bind hs₂ fun value s₃ hs₃ _ _ => ?_
    exact (settles_terminate _ _ hs₃).bind hs₃ fun _ _ _ _ _ => .pure trivial
  · exact (settles_terminate _ _ hs₂).bind hs₂ fun _ _ _ _ _ => .pure trivial

theorem block_settle (hb : 32 * s.rest.length + 21 < b + 1) :
    Settles (Parser.block (n + 1)) (Parser.block (m + 1)) s Ends := by
  unfold Parser.block
  refine ((ih.declarations true).run hn hm hs (by omega)).bind hs fun body s₁ hs₁ _ _ => ?_
  exact (settles_expect _ _).bind hs₁ fun _ _ _ _ _ => .pure trivial

theorem statement_settle (hb : 32 * s.rest.length + 18 < b + 1) :
    Settles (Parser.statement (n + 1)) (Parser.statement (m + 1)) s (Moves s) := by
  -- a statement that starts with a keyword has read it
  have hkeyword : ∀ {rule rule' : Token → Rule Stmt}, s.next.kind ≠ .endOfInput →
      (∀ keyword s₁, s₁.Proper → s₁.rest.length < s.rest.length →
        Settles (rule keyword) (rule' keyword) s₁ Ends) →
      Settles (takeToken >>= rule) (takeToken >>= rule') s (Moves s) := fun hkind hnext =>
    (settles_takeToken hs hkind).bind hs fun keyword s₁ hs₁ _ hmoves =>
      (hnext keyword s₁ hs₁ hmoves).moves hmoves
  unfold Parser.statement
  refine .peek ?_
  split
  · next hkind =>
    refine hkeyword (by simp [hkind]) fun _ s₁ hs₁ h₁ => ?_
    refine (ih.expression.run hn hm hs₁ (by omega)).bind hs₁ fun value s₂ hs₂ _ _ => ?_
    exact (settles_terminate _ _ hs₂).bind hs₂ fun _ _ _ _ _ => .pure trivial
  · next hkind =>
    refine hkeyword (by simp [hkind]) fun _ s₁ hs₁ h₁ => ?_
    refine (settles_expect _ _).bind hs₁ fun _ s₂ hs₂ h₂ _ => ?_
    refine (ih.expression.run hn hm hs₂ (by omega)).bind hs₂ fun test s₃ hs₃ h₃ _ => ?_
    refine (settles_expect _ _).bind hs₃ fun _ s₄ hs₄ h₄ _ => ?_
    refine (ih.statement.run hn hm hs₄ (by omega)).bind hs₄ fun yes s₅ hs₅ h₅ _ => ?_
    refine (settles_accept _).bind hs₅ fun taken s₆ hs₆ h₆ _ => ?_
    refine .ite (fun _ => ?_) fun _ => .pure trivial
    exact (ih.statement.run hn hm hs₆ (by omega)).bind hs₆ fun _ _ _ _ _ => .pure trivial
  · next hkind =>
    refine hkeyword (by simp [hkind]) fun _ s₁ hs₁ h₁ => ?_
    exact (ih.block.run hn hm hs₁ (by omega)).bind hs₁ fun _ _ _ _ _ => .pure trivial
  · next hkind =>
    refine hkeyword (by simp [hkind]) fun _ s₁ hs₁ h₁ => ?_
    refine (settles_expect _ _).bind hs₁ fun _ s₂ hs₂ h₂ _ => ?_
    refine (ih.expression.run hn hm hs₂ (by omega)).bind hs₂ fun test s₃ hs₃ h₃ _ => ?_
    refine (settles_expect _ _).bind hs₃ fun _ s₄ hs₄ h₄ _ => ?_
    exact (ih.loopBody_settle hn hm hs₄ (by omega)).bind hs₄ fun _ _ _ _ _ => .pure trivial
  · next hkind =>
    exact hkeyword (by simp [hkind]) fun _ s₁ hs₁ h₁ => ih.countedLoop.run hn hm hs₁ (by omega)
  · next hkind =>
    exact hkeyword (by simp [hkind]) fun keyword s₁ hs₁ _ => settles_loopExit keyword _ _ hs₁
  · next hkind =>
    exact hkeyword (by simp [hkind]) fun keyword s₁ hs₁ _ => settles_loopExit keyword _ _ hs₁
  · next hkind =>
    refine hkeyword (by simp [hkind]) fun _ s₁ hs₁ h₁ => .check (.ite (fun _ => ?_) fun _ => ?_)
    · exact (settles_terminate _ _ hs₁).bind hs₁ fun _ _ _ _ _ => .pure trivial
    · refine (ih.expression.run hn hm hs₁ (by omega)).bind hs₁ fun value s₂ hs₂ _ _ => ?_
      exact (settles_terminate _ _ hs₂).bind hs₂ fun _ _ _ _ _ => .pure trivial
  · exact ih.expressionStatement.run hn hm hs (by omega)

theorem expressionStatement_settle (hb : 32 * s.rest.length + 17 < b + 1) :
    Settles (Parser.expressionStatement (n + 1)) (Parser.expressionStatement (m + 1)) s
      (Moves s) := by
  unfold Parser.expressionStatement
  refine (ih.expression.run hn hm hs (by omega)).bind hs fun value s₁ hs₁ _ hmoves => ?_
  refine (settles_terminate _ _ hs₁).bind hs₁ fun _ s₂ _ h₂ _ => .pure ?_
  exact Nat.lt_of_le_of_lt h₂ hmoves

theorem countedLoop_settle (hb : 32 * s.rest.length + 0 < b + 1) :
    Settles (Parser.countedLoop (n + 1)) (Parser.countedLoop (m + 1)) s Ends := by
  unfold Parser.countedLoop
  refine (settles_expect _ _).bind hs fun _ s₁ hs₁ _ hopen => ?_
  unfold Moves at hopen
  refine (ih.loopStart.run hn hm hs₁ (by omega)).bind hs₁ fun start s₂ hs₂ h₂ _ => ?_
  refine ((ih.optionalExpression _).run hn hm hs₂ (by omega)).bind hs₂ fun test s₃ hs₃ h₃ _ => ?_
  refine (settles_expect _ _).bind hs₃ fun _ s₄ hs₄ h₄ _ => ?_
  refine ((ih.optionalExpression _).run hn hm hs₄ (by omega)).bind hs₄ fun step s₅ hs₅ h₅ _ => ?_
  refine (settles_expect _ _).bind hs₅ fun _ s₆ hs₆ h₆ _ => ?_
  exact (ih.loopBody_settle hn hm hs₆ (by omega)).bind hs₆ fun _ _ _ _ _ => .pure trivial

theorem loopStart_settle (hb : 32 * s.rest.length + 18 < b + 1) :
    Settles (Parser.loopStart (n + 1)) (Parser.loopStart (m + 1)) s Ends := by
  unfold Parser.loopStart
  refine (settles_accept _).bind hs fun _ s₁ hs₁ h₁ _ => .ite (fun _ => .pure trivial) fun _ => ?_
  refine (settles_accept _).bind hs₁ fun taken s₂ hs₂ h₂ htaken => .ite (fun hc => ?_) fun _ => ?_
  · have hmoves := htaken hc
    unfold Moves at hmoves
    exact .map (ih.variableRest.run hn hm hs₂ (by omega)).ends
  · exact .map (ih.expressionStatement.run hn hm hs₂ (by omega)).ends

theorem optionalExpression_settle (closing : Kind) (hb : 32 * s.rest.length + 17 < b + 1) :
    Settles (Parser.optionalExpression (n + 1) closing) (Parser.optionalExpression (m + 1) closing)
      s Ends := by
  unfold Parser.optionalExpression
  refine .check (.ite (fun _ => .pure trivial) fun _ => ?_)
  exact .map (ih.expression.run hn hm hs (by omega)).ends

theorem expression_settle (hb : 32 * s.rest.length + 16 < b + 1) :
    Settles (Parser.expression (n + 1)) (Parser.expression (m + 1)) s (Moves s) := by
  unfold Parser.expression
  refine .get (.ite (fun hstep => settles_countingStep hs hstep) fun _ => ?_)
  exact .ite (fun _ => ih.lambda.run hn hm hs (by omega)) fun _ =>
    ih.assignment.run hn hm hs (by omega)

theorem lambda_settle (hb : 32 * s.rest.length + 1 < b + 1) :
    Settles (Parser.lambda (n + 1)) (Parser.lambda (m + 1)) s (Moves s) := by
  unfold Parser.lambda
  have htaken : Settles takeToken takeToken s Ends :=
    ⟨rfl, .ok s.leads_advance.ending s.leads_advance.rest.length_le trivial⟩
  refine htaken.bind hs fun _ s₁ hs₁ h₁ _ => ?_
  refine (settles_parameters hs₁ (by omega) (by omega)).bind hs₁ fun params s₂ hs₂ h₂ _ => ?_
  refine (settles_expect _ _).bind hs₂ fun _ s₃ hs₃ _ hclose => ?_
  refine (settles_expect _ _).bind hs₃ fun arrow s₄ hs₄ h₄ _ => ?_
  refine (settles_accept _).bind hs₄ fun taken s₅ hs₅ h₅ _ => ?_
  unfold Moves at hclose
  refine .ite (fun _ => ?_) fun _ => ?_
  · refine (ih.functionBody_settle hn hm hs₅ (by omega)).bind hs₅ fun _ s₆ _ h₆ _ => .pure ?_
    unfold Moves
    omega
  · refine (ih.expression.run hn hm hs₅ (by omega)).bind hs₅ fun value s₆ _ h₆ _ => .pure ?_
    unfold Moves
    omega

theorem assignment_settle (hb : 32 * s.rest.length + 15 < b + 1) :
    Settles (Parser.assignment (n + 1)) (Parser.assignment (m + 1)) s (Moves s) := by
  unfold Parser.assignment
  refine (ih.conditional.run hn hm hs (by omega)).bind hs fun target s₁ hs₁ _ htarget => ?_
  refine (settles_acceptToken? _).bind hs₁ fun equals? s₂ hs₂ h₂ _ => ?_
  unfold Moves at htarget
  split
  · refine .pure ?_
    unfold Moves
    omega
  · refine (ih.assignment.run hn hm hs₂ (by omega)).bind hs₂ fun value s₃ hs₃ h₃ _ => ?_
    split
    · refine .pure ?_
      unfold Moves
      omega
    · refine (settles_complain _ _).bind hs₃ fun _ s₄ _ h₄ _ => .pure ?_
      unfold Moves
      omega

theorem conditional_settle (hb : 32 * s.rest.length + 14 < b + 1) :
    Settles (Parser.conditional (n + 1)) (Parser.conditional (m + 1)) s (Moves s) := by
  unfold Parser.conditional
  have htest : Settles (Parser.level n .disjunction) (Parser.level m .disjunction) s (Moves s) :=
    (ih.level _).run hn hm hs (by simp only [Level.rank]; omega)
  refine htest.bind hs fun test s₁ hs₁ _ htest => ?_
  refine (settles_accept _).bind hs₁ fun taken s₂ hs₂ h₂ _ => ?_
  unfold Moves at htest
  refine .ite (fun _ => ?_) fun _ => .pure (Nat.lt_of_le_of_lt h₂ htest)
  refine (ih.expression.run hn hm hs₂ (by omega)).bind hs₂ fun yes s₃ hs₃ h₃ _ => ?_
  refine (settles_expect _ _).bind hs₃ fun _ s₄ hs₄ h₄ _ => ?_
  refine (ih.conditional.run hn hm hs₄ (by omega)).bind hs₄ fun no s₅ _ h₅ _ => .pure ?_
  unfold Moves
  omega

theorem level_settle (l : Level) (hb : 32 * s.rest.length + (l.rank + 1) < b + 1) :
    Settles (Parser.level (n + 1) l) (Parser.level (m + 1) l) s (Moves s) := by
  unfold Parser.level
  refine ((ih.operand l).run hn hm hs (by omega)).bind hs fun left s₁ hs₁ _ hleft => ?_
  unfold Moves at hleft
  exact ((ih.levelRest l left).run hn hm hs₁ (by omega)).moves hleft

theorem levelRest_settle (l : Level) (left : Expr) (hb : 32 * s.rest.length + 0 < b + 1) :
    Settles (Parser.levelRest (n + 1) l left) (Parser.levelRest (m + 1) l left) s Ends := by
  unfold Parser.levelRest
  have hrank := l.rank_le
  refine (settles_acceptToken? _).bind hs fun operator? s₁ hs₁ _ hmoves => ?_
  split
  · exact .pure trivial
  · have hmoves := hmoves rfl
    unfold Moves at hmoves
    refine ((ih.operand l).run hn hm hs₁ (by omega)).bind hs₁ fun right s₂ hs₂ h₂ _ => ?_
    exact (ih.levelRest l _).run hn hm hs₂ (by omega)

theorem operand_settle (l : Level) (hb : 32 * s.rest.length + l.rank < b + 1) :
    Settles (Parser.operand (n + 1) l) (Parser.operand (m + 1) l) s (Moves s) := by
  unfold Parser.operand
  split
  · next tighter htighter =>
    have hrank := Level.rank_of_tighter htighter
    exact (ih.level tighter).run hn hm hs (by omega)
  · next hlast =>
    have hrank : 2 ≤ l.rank := by cases l <;> decide
    exact ih.unary.run hn hm hs (by omega)

theorem unary_settle (hb : 32 * s.rest.length + 1 < b + 1) :
    Settles (Parser.unary (n + 1)) (Parser.unary (m + 1)) s (Moves s) := by
  unfold Parser.unary
  refine (settles_acceptToken? _).bind hs fun operator? s₁ hs₁ h₁ hmoves => ?_
  split
  · have hmoves := hmoves rfl
    unfold Moves at hmoves
    refine (ih.unary.run hn hm hs₁ (by omega)).bind hs₁ fun value s₂ _ h₂ _ => .pure ?_
    exact Nat.lt_of_le_of_lt h₂ hmoves
  · refine (ih.primary.run hn hm hs₁ (by omega)).bind hs₁ fun value s₂ hs₂ _ hvalue => ?_
    unfold Moves at hvalue
    exact ((ih.suffixes value).run hn hm hs₂ (by omega)).moves (by omega)

theorem suffixes_settle (value : Expr) (hb : 32 * s.rest.length + 0 < b + 1) :
    Settles (Parser.suffixes (n + 1) value) (Parser.suffixes (m + 1) value) s Ends := by
  unfold Parser.suffixes
  refine .peek ?_
  split
  · next hkind =>
    refine (settles_takeToken hs (by simp [hkind])).bind hs fun _ s₁ hs₁ _ hmoves => ?_
    unfold Moves at hmoves
    refine ((ih.expressions _ _).run hn hm hs₁ (by omega)).bind hs₁ fun _ s₂ hs₂ h₂ _ => ?_
    refine (settles_expect _ _).bind hs₂ fun _ s₃ hs₃ h₃ _ => ?_
    exact (ih.suffixes _).run hn hm hs₃ (by omega)
  · next hkind =>
    refine (settles_takeToken hs (by simp [hkind])).bind hs fun _ s₁ hs₁ _ hmoves => ?_
    unfold Moves at hmoves
    refine (settles_expect _ _).bind hs₁ fun _ s₂ hs₂ h₂ _ => ?_
    exact (ih.suffixes _).run hn hm hs₂ (by omega)
  · next hkind =>
    refine (settles_takeToken hs (by simp [hkind])).bind hs fun _ s₁ hs₁ _ hmoves => ?_
    unfold Moves at hmoves
    refine (ih.expression.run hn hm hs₁ (by omega)).bind hs₁ fun _ s₂ hs₂ h₂ _ => ?_
    refine (settles_expect _ _).bind hs₂ fun _ s₃ hs₃ h₃ _ => ?_
    exact (ih.suffixes _).run hn hm hs₃ (by omega)
  · exact .pure trivial

theorem expressions_settle (closing : Kind) (limited : Bool)
    (hb : 32 * s.rest.length + 18 < b + 1) :
    Settles (Parser.expressions (n + 1) closing limited)
      (Parser.expressions (m + 1) closing limited) s Ends := by
  unfold Parser.expressions
  refine .check (.ite (fun _ => .pure trivial) fun _ => ?_)
  exact (ih.expressionList limited 0).run hn hm hs (by omega)

theorem expressionList_settle (limited : Bool) (count : Nat)
    (hb : 32 * s.rest.length + 17 < b + 1) :
    Settles (Parser.expressionList (n + 1) limited count)
      (Parser.expressionList (m + 1) limited count) s Ends := by
  have hlist : ∀ s₁ : State, s₁.Proper → s₁.rest.length ≤ s.rest.length →
      Settles (do
        let value ← Parser.expression n
        if ← accept .comma then
          let values ← Parser.expressionList n limited (count + 1)
          return value :: values
        else return [value]) (do
        let value ← Parser.expression m
        if ← accept .comma then
          let values ← Parser.expressionList m limited (count + 1)
          return value :: values
        else return [value]) s₁ Ends := by
    intro s₁ hs₁ h₁
    refine (ih.expression.run hn hm hs₁ (by omega)).bind hs₁ fun value s₂ hs₂ _ hvalue => ?_
    refine (settles_accept _).bind hs₂ fun taken s₃ hs₃ h₃ _ => ?_
    unfold Moves at hvalue
    refine .ite (fun _ => ?_) fun _ => .pure trivial
    exact ((ih.expressionList _ _).run hn hm hs₃ (by omega)).bind hs₃ fun _ _ _ _ _ => .pure trivial
  unfold Parser.expressionList
  refine .ite (fun _ => ?_) fun _ => hlist s hs (Nat.le_refl _)
  exact (settles_complainNext _).bind hs fun _ s₁ hs₁ h₁ _ => hlist s₁ hs₁ h₁

theorem primary_settle (hb : 32 * s.rest.length + 0 < b + 1) :
    Settles (Parser.primary (n + 1)) (Parser.primary (m + 1)) s (Moves s) := by
  -- whatever a value starts with, it has read it
  have htaken : ∀ {rule rule' : Token → Rule Expr}, s.next.kind ≠ .endOfInput →
      (∀ t s₁, s₁.Proper → s₁.rest.length < s.rest.length →
        Settles (rule t) (rule' t) s₁ Ends) →
      Settles (takeToken >>= rule) (takeToken >>= rule') s (Moves s) := fun hkind hnext =>
    (settles_takeToken hs hkind).bind hs fun t s₁ hs₁ _ hmoves =>
      (hnext t s₁ hs₁ hmoves).moves hmoves
  unfold Parser.primary
  refine .peek ?_
  split
  case h_1 | h_2 | h_3 | h_4 | h_5 | h_6 | h_7 =>
    next hkind => exact htaken (by simp [hkind]) fun _ _ _ _ => .pure trivial
  case h_8 | h_9 =>
    next hkind =>
    exact htaken (by simp [hkind]) fun _ _ hs₁ _ => settles_freshId.bind hs₁ fun _ _ _ _ _ =>
      .pure trivial
  · next hkind =>
    refine htaken (by simp [hkind]) fun _ s₁ hs₁ h₁ => ?_
    refine (ih.expression.run hn hm hs₁ (by omega)).bind hs₁ fun inner s₂ hs₂ _ _ => ?_
    exact (settles_expect _ _).bind hs₂ fun _ _ _ _ _ => .pure trivial
  · next hkind =>
    refine htaken (by simp [hkind]) fun _ s₁ hs₁ h₁ => ?_
    refine ((ih.expressions _ _).run hn hm hs₁ (by omega)).bind hs₁ fun elements s₂ hs₂ _ _ => ?_
    exact (settles_expect _ _).bind hs₂ fun _ _ _ _ _ => .pure trivial
  · exact settles_fail _

end RulesSettle

/-- With one more unit of fuel a rule settles if its body does. -/
theorem Settled.succ {α : Type} {rule : Nat → Rule α} {rank b : Nat}
    {Post : State → α → State → Prop}
    (h : ∀ {n m s}, b ≤ n → b ≤ m → s.Proper → 32 * s.rest.length + rank < b + 1 →
      Settles (rule (n + 1)) (rule (m + 1)) s (Post s)) : Settled rule rank (b + 1) Post := by
  refine ⟨fun {n m s} hn hm hs hb => ?_⟩
  obtain ⟨n, rfl⟩ : ∃ k, n = k + 1 := ⟨n - 1, by omega⟩
  obtain ⟨m, rfl⟩ : ∃ k, m = k + 1 := ⟨m - 1, by omega⟩
  exact h (Nat.le_of_succ_le_succ hn) (Nat.le_of_succ_le_succ hm) hs hb

/-- No fuel is enough for nothing. -/
theorem Settled.zero {α : Type} {rule : Nat → Rule α} {rank : Nat}
    {Post : State → α → State → Prop} : Settled rule rank 0 Post :=
  ⟨fun _ _ _ hb => absurd hb (Nat.not_lt_zero _)⟩

/-- **Enough fuel is as good as any.** -/
theorem rulesSettle (b : Nat) : RulesSettle b := by
  induction b with
  | zero =>
    exact ⟨fun _ => .zero, .zero, .zero, fun _ => .zero, .zero, .zero, .zero, .zero, .zero, .zero,
      fun _ => .zero, .zero, .zero, .zero, .zero, fun _ => .zero, fun _ _ => .zero, fun _ => .zero,
      .zero, fun _ => .zero, fun _ _ => .zero, fun _ _ => .zero, .zero⟩
  | succ b ih =>
    exact
      { declarations := fun inBlock => .succ fun hn hm hs => ih.declarations_settle hn hm hs inBlock
        declaration := .succ ih.declaration_settle
        methodList := .succ ih.methodList_settle
        functionRest := fun name => .succ fun hn hm hs => ih.functionRest_settle hn hm hs name
        variableRest := .succ ih.variableRest_settle
        block := .succ ih.block_settle
        statement := .succ ih.statement_settle
        expressionStatement := .succ ih.expressionStatement_settle
        countedLoop := .succ ih.countedLoop_settle
        loopStart := .succ ih.loopStart_settle
        optionalExpression := fun closing =>
          .succ fun hn hm hs => ih.optionalExpression_settle hn hm hs closing
        expression := .succ ih.expression_settle
        lambda := .succ ih.lambda_settle
        assignment := .succ ih.assignment_settle
        conditional := .succ ih.conditional_settle
        level := fun l => .succ fun hn hm hs => ih.level_settle hn hm hs l
        levelRest := fun l left => .succ fun hn hm hs => ih.levelRest_settle hn hm hs l left
        operand := fun l => .succ fun hn hm hs => ih.operand_settle hn hm hs l
        unary := .succ ih.unary_settle
        suffixes := fun value => .succ fun hn hm hs => ih.suffixes_settle hn hm hs value
        expressions := fun closing limited =>
          .succ fun hn hm hs => ih.expressions_settle hn hm hs closing limited
        expressionList := fun limited count =>
          .succ fun hn hm hs => ih.expressionList_settle hn hm hs limited count
        primary := .succ ih.primary_settle }

/-! ### Whole programs -/

/-- **The fuel for some tokens is enough.** Reading a program ends with a result or at a fault, and
with more fuel it would end in the same way. -/
theorem declarations_fuel (tokens : List Token) (firstId : Nat) {fuel : Nat}
    (hfuel : fuelFor tokens ≤ fuel) :
    Settles (declarations (fuelFor tokens) false) (declarations fuel false)
      (.ofTokens tokens firstId) Ends := by
  have hle : (State.ofTokens tokens firstId).rest.length ≤ tokens.length :=
    (List.takeWhile_sublist _).length_le
  refine ((rulesSettle (fuelFor tokens)).declarations false).run (Nat.le_refl _) hfuel
    (proper_ofTokens tokens firstId) ?_
  unfold fuelFor
  omega

end Parser

end Roteiro
