import Roteiro.Proofs.Parser.Reading
import Roteiro.Proofs.Parser.Spelling

/-!
# Rules on known tokens

`Takes rule s ts rest next n` says what a rule does where the tokens in front of it are known: it
takes `ts`, leaves `rest`, hands out `n` numbers without a complaint, and goes on as `next`. With
`pure a` for `next` the rule is over and gives `a`. A proof goes through the rule from left to right
with one lemma for each action, and through the tokens at the same pace.

How far a rule reads depends on the token behind. `Kind.grip` says how tightly a token clings to the
expression in front of it: an operand of a level stops in front of every token whose grip is not
tighter than the level.
-/

namespace Roteiro

open Grammar

/-- How tightly a token clings to an expression in front of it. -/
def Kind.grip : Kind → Nat
  | .equal | .arrow | .plusPlus | .minusMinus => 1
  | .question => 2
  | .orKw => 3
  | .andKw => 4
  | .bangEqual | .equalEqual => 5
  | .greater | .greaterEqual | .less | .lessEqual => 6
  | .minus | .plus => 7
  | .star | .slash | .percent => 8
  | .leftParen | .dot | .leftBracket => 9
  | _ => 0

namespace Parser

/-- A state in front of the given tokens. -/
def State.before (s : State) (tokens : List Token) : State := { s with rest := tokens }

/-- A state behind the given tokens, for which `n` numbers were handed out. What is left to read
stays open. -/
def State.after (s : State) (ts : List Token) (n : Nat) : State :=
  { s with last := ts.getLast?.or s.last, nextId := s.nextId + n }

section State

variable (s : State) (ts us : List Token) (n m : Nat)

@[simp] theorem State.after_nextId : (s.after ts n).nextId = s.nextId + n := rfl

@[simp] theorem State.after_loops : (s.after ts n).loops = s.loops := rfl

@[simp] theorem State.after_nil : s.after [] 0 = s := rfl

theorem State.after_after : (s.after ts n).after us m = s.after (ts ++ us) (n + m) := by
  simp [State.after, List.getLast?_append, Option.or_assoc, Nat.add_assoc]

/-- No semicolon was read last. -/
def State.Open (s : State) : Prop := s.last.any (·.kind = .semicolon) = false

theorem State.open_after {ts : List Token} (h : EndsOpen ts) : (s.after ts n).Open := by
  obtain ⟨front, t, rfl, ht⟩ := h
  simp [State.Open, State.after, ht]

end State

/-- Whether the first of some tokens is of this kind. -/
def begins (ts : List Token) (kind : Kind) : Bool := ts.head?.any (·.kind = kind)

theorem begins_cons (t : Token) (ts : List Token) (kind : Kind) :
    begins (t :: ts) kind = decide (t.kind = kind) := rfl

theorem begins_eq_false {p : Kind → Bool} {ts : List Token} {kind : Kind} (h : Starts p ts)
    (hkind : p kind = false) (rest : List Token) : begins (ts ++ rest) kind = false := by
  obtain ⟨t, us, rfl, ht⟩ := h
  simp only [List.cons_append, begins_cons, decide_eq_false_iff_not]
  rintro rfl
  rw [ht] at hkind
  cases hkind

/-- What a rule does in front of known tokens. -/
def Takes {α : Type} (rule : Rule α) (s : State) (ts rest : List Token) (next : Rule α) (n : Nat) :
    Prop :=
  rule (s.before (ts ++ rest)) = next ((s.after ts n).before rest)

namespace Takes

variable {α β : Type} {rule next₁ : Rule α} {f : α → Rule β} {s : State} {t : Token}
  {ts us rest : List Token} {a : α} {next : Rule β} {n m total : Nat} {kind : Kind} {cause : Cause}

theorem done : Takes next s [] rest next 0 := rfl

theorem trans {next₂ : Rule α} (h : Takes rule s ts (us ++ rest) next₁ n)
    (h' : Takes next₁ (s.after ts n) us rest next₂ m) (htotal : total = n + m) :
    Takes rule s (ts ++ us) rest next₂ total := by
  unfold Takes at h h' ⊢
  rw [List.append_assoc, h, h', State.after_after, htotal]

/-- A rule goes on, but reads nothing more. -/
theorem finish {next₂ : Rule α} (h : Takes rule s ts rest next₁ n)
    (h' : Takes next₁ (s.after ts n) [] rest next₂ 0) : Takes rule s ts rest next₂ n := by
  rw [← List.append_nil ts]
  exact h.trans h' rfl

/-- Two rules in sequence take their tokens in sequence. -/
theorem bind (h : Takes rule s ts (us ++ rest) (pure a) n)
    (h' : Takes (f a) (s.after ts n) us rest next m) (htotal : total = n + m) :
    Takes (rule >>= f) s (ts ++ us) rest next total := by
  have hfirst : Takes (rule >>= f) s ts (us ++ rest) (f a) n := by
    unfold Takes at h ⊢
    simp only [Bind.bind, EStateM.bind, h]
    rfl
  exact hfirst.trans h' htotal

/-- Nothing is read behind the first rule. -/
theorem bind_last (h : Takes rule s ts rest (pure a) n) :
    Takes (rule >>= f) s ts rest (f a) n := by
  unfold Takes at h ⊢
  simp only [Bind.bind, EStateM.bind, h]
  rfl

theorem map {g : α → β} (h : Takes rule s ts rest (pure a) n) :
    Takes (g <$> rule) s ts rest (pure (g a)) n := by
  unfold Takes at h ⊢
  simp only [Functor.map, EStateM.map, h]
  rfl

/-- A single token is taken first. -/
theorem bind_token {first : Rule α} (h : first (s.before (t :: (ts ++ rest))) =
      .ok a ((s.after [t] 0).before (ts ++ rest)))
    (h' : Takes (f a) (s.after [t] 0) ts rest next n) :
    Takes (first >>= f) s (t :: ts) rest next n := by
  have htaken : Takes first s [t] (ts ++ rest) (pure a) 0 := h
  exact htaken.bind h' (Nat.zero_add n).symm

theorem take {f : Token → Rule β} (h : Takes (f t) (s.after [t] 0) ts rest next n) :
    Takes (takeToken >>= f) s (t :: ts) rest next n := bind_token rfl h

theorem expect {f : Token → Rule β} (hkind : t.kind = kind)
    (h : Takes (f t) (s.after [t] 0) ts rest next n) :
    Takes (expect kind cause >>= f) s (t :: ts) rest next n := by
  refine bind_token ?_ h
  have hstart : (s.before (t :: (ts ++ rest))).startsWith kind = true := by
    simpa [State.startsWith, State.before] using hkind
  rw [Parser.expect, if_pos hstart]
  rfl

theorem accept {f : Bool → Rule β} (hkind : t.kind = kind)
    (h : Takes (f true) (s.after [t] 0) ts rest next n) :
    Takes (accept kind >>= f) s (t :: ts) rest next n := by
  refine bind_token ?_ h
  have hstart : (s.before (t :: (ts ++ rest))).startsWith kind = true := by
    simpa [State.startsWith, State.before] using hkind
  rw [Parser.accept, if_pos hstart]
  rfl

theorem acceptToken {f : Option Token → Rule β} {among : Kind → Bool} (hkind : among t.kind = true)
    (h : Takes (f (some t)) (s.after [t] 0) ts rest next n) :
    Takes (acceptToken? among >>= f) s (t :: ts) rest next n := by
  refine bind_token ?_ h
  simp only [acceptToken?, State.before, hkind, if_true]
  rfl

/-! ### Rules that only look -/

theorem peek {f : Kind → Rule β} (h : Takes (f t.kind) s (t :: ts) rest next n) :
    Takes (peekKind >>= f) s (t :: ts) rest next n := h

theorem check {f : Bool → Rule β} (h : Takes (f (begins (ts ++ rest) kind)) s ts rest next n) :
    Takes (check kind >>= f) s ts rest next n := h

theorem atEnd {f : Bool → Rule β} (h : Takes (f (ts ++ rest).isEmpty) s ts rest next n) :
    Takes (atEnd >>= f) s ts rest next n := h

theorem get {f : State → Rule β} (h : Takes (f (s.before (ts ++ rest))) s ts rest next n) :
    Takes (get >>= f) s ts rest next n := h

/-- The end of a statement that is written out. -/
theorem terminate {f : Unit → Rule β} {value? : Option Expr} (hkind : t.kind = .semicolon)
    (hopen : s.Open) (h : Takes (f ()) (s.after [t] 0) ts rest next n) :
    Takes (terminate value? cause >>= f) s (t :: ts) rest next n := by
  have hend : Takes (Parser.terminate value? cause) s [t] (ts ++ rest) (pure ()) 0 := by
    unfold Parser.terminate
    refine Takes.get ?_
    have hlast : ¬(s.before ([t] ++ (ts ++ rest))).last.any (·.kind = .semicolon) = true :=
      Bool.eq_false_iff.mp hopen
    rw [if_neg hlast]
    split
    · exact Takes.accept hkind Takes.done
    · exact Takes.expect hkind Takes.done
  exact bind_token hend h

theorem decline {f : Bool → Rule β} (hno : begins (ts ++ rest) kind = false)
    (h : Takes (f false) s ts rest next n) : Takes (Parser.accept kind >>= f) s ts rest next n := by
  have haccept : Parser.accept kind (s.before (ts ++ rest)) =
      .ok false (s.before (ts ++ rest)) := by
    rw [Parser.accept, if_neg]
    exact Bool.eq_false_iff.mp hno
  unfold Takes at h ⊢
  simp only [Bind.bind, EStateM.bind, haccept, h]

theorem declineToken {f : Option Token → Rule β} {among : Kind → Bool}
    (hno : ∀ t ∈ (ts ++ rest).head?, among t.kind = false)
    (h : Takes (f none) s ts rest next n) : Takes (acceptToken? among >>= f) s ts rest next n := by
  have haccept : acceptToken? among (s.before (ts ++ rest)) = .ok none (s.before (ts ++ rest)) := by
    unfold acceptToken? State.before
    split
    · next t us heq =>
      have ht := hno t (by rw [show ts ++ rest = t :: us from heq]; rfl)
      simp only [ht, Bool.false_eq_true, if_false]
    · rfl
  unfold Takes at h ⊢
  simp only [Bind.bind, EStateM.bind, haccept, h]

theorem fresh {f : Nat → Rule β} (h : Takes (f s.nextId) (s.after [] 1) [] rest next n)
    (htotal : total = 1 + n) : Takes (freshId >>= f) s [] rest next total := by
  have htaken : Takes freshId s [] rest (pure s.nextId) 1 := rfl
  exact htaken.bind h htotal

theorem withLoops {loops : Nat → Nat}
    (h : Takes rule { s with loops := loops s.loops } ts rest (pure a) n) :
    Takes (withLoops loops rule) s ts rest (pure a) n := by
  unfold Takes at h ⊢
  have hrun : rule { s.before (ts ++ rest) with loops := loops s.loops } = _ := h
  simp only [Parser.withLoops, State.before] at hrun ⊢
  rw [hrun]
  rfl

theorem recover (h : Takes rule s ts rest (pure a) n) :
    Takes (recover rule) s ts rest (pure (some a)) n := by
  unfold Takes at h ⊢
  simp only [Parser.recover, h]
  rfl

end Takes

/-! ### What stops an expression -/

/-- The grip of the operators of a level. -/
def Level.grip : Level → Nat
  | disjunction => 3
  | conjunction => 4
  | equality => 5
  | comparison => 6
  | sum => 7
  | product => 8

theorem Level.grip_of_operators {l : Level} {k : Kind} (h : l.operators k = true) :
    k.grip = l.grip := by
  cases l <;> simp only [Level.operators, Bool.or_eq_true, decide_eq_true_eq] at h
  case disjunction | conjunction => subst h; rfl
  case equality | sum => rcases h with rfl | rfl <;> rfl
  case product => rcases h with (rfl | rfl) | rfl <;> rfl
  case comparison => rcases h with ((rfl | rfl) | rfl) | rfl <;> rfl

theorem Level.grip_of_tighter {l tighter : Level} (h : l.tighter? = some tighter) :
    tighter.grip = l.grip + 1 := by
  cases l <;> cases h <;> rfl

/-- The rank of the operands of a level: a rule that calls another one before a token is read has a
higher rank. -/
def Level.rank : Level → Nat
  | disjunction => 12
  | conjunction => 10
  | equality => 8
  | comparison => 6
  | sum => 4
  | product => 2

theorem Level.rank_le (l : Level) : l.rank ≤ 12 := by cases l <;> decide

theorem Level.rank_of_tighter {l tighter : Level} (h : l.tighter? = some tighter) :
    tighter.rank + 2 = l.rank := by
  cases l <;> cases h <;> rfl

/-- The grip of the first token. -/
def grip (rest : List Token) : Nat := (rest.head?.map fun t => t.kind.grip).getD 0

@[simp] theorem grip_nil : grip [] = 0 := rfl

@[simp] theorem grip_cons (t : Token) (rest : List Token) : grip (t :: rest) = t.kind.grip := rfl

theorem grip_of_head {rest : List Token} {t : Token} (h : t ∈ rest.head?) :
    t.kind.grip = grip rest := by
  cases rest with
  | nil => cases h
  | cons u us =>
    cases h
    rfl

/-- A token of a different grip is not the one that is looked for. -/
theorem begins_of_grip {rest : List Token} {kind : Kind} (h : grip rest ≠ kind.grip) :
    begins rest kind = false := by
  cases rest with
  | nil => rfl
  | cons t us =>
    rw [begins_cons, decide_eq_false_iff_not]
    rintro rfl
    exact h rfl

/-- Where nothing clings, nothing turns. -/
theorem turns_of_grip {rest : List Token} (h : grip rest = 0) {t : Token} (ht : t ∈ rest.head?) :
    t.kind.turns = false := by
  have hgrip := grip_of_head ht
  rw [h] at hgrip
  rw [Bool.eq_false_iff]
  intro hturns
  simp only [Kind.turns, Bool.or_eq_true, decide_eq_true_eq] at hturns
  rcases hturns with (hk | hk) | hk <;> rw [hk] at hgrip <;> cases hgrip

/-- Behind a value that no suffix follows, reading stops. -/
theorem takes_suffixes {left : Nat} {e : Expr} {s : State} {rest : List Token} (hs : s.Proper)
    (h : grip rest < 9) : Takes (suffixes (left + 1) e) s [] rest (pure e) 0 := by
  rw [suffixes]
  have hkind : (s.before rest).next.kind.grip < 9 := by
    cases rest with
    | nil =>
      rw [show (s.before []).next.kind = .endOfInput from hs]
      decide
    | cons t us => exact h
  unfold Takes
  simp only [Bind.bind, EStateM.bind, peekKind, List.nil_append]
  generalize (s.before rest).next.kind = k at hkind
  split
  · exact absurd hkind (by decide)
  · exact absurd hkind (by decide)
  · exact absurd hkind (by decide)
  · rfl

/-- Behind a level that no operator of it follows, reading stops. -/
theorem takes_levelRest {l : Level} {left : Nat} {e : Expr} {s : State} {rest : List Token}
    (h : grip rest < l.grip) : Takes (levelRest (left + 1) l e) s [] rest (pure e) 0 := by
  rw [levelRest]
  refine Takes.declineToken (fun t ht => ?_) Takes.done
  rw [Bool.eq_false_iff]
  intro hoperator
  have heq := Level.grip_of_operators hoperator
  rw [grip_of_head ht] at heq
  exact absurd heq (Nat.ne_of_lt h)

end Parser

end Roteiro
