import Roteiro.Proofs.Parser.Complaints
import Roteiro.Proofs.Parser.Likeness
import Roteiro.Proofs.Parser.Taking

/-!
# A counting step and the assignment it is short for

`i++` is short for `i = i + 1`, and `i--` for `i = i - 1`. Where an expression is read, both give
the same tree, but for the numbers of the two occurrences and for the lines. They do not always
leave the same tokens: a step takes the semicolon behind it along.

* `Counting.reaches_assigned`, `Counting.takes_stepped`: what is read where the one or the other
  stands.
-/

namespace Roteiro

open Grammar

namespace Parser

/-- Tokens that differ in their lines only correspond, and any numbers do. -/
def shapes : Correspondence where
  token t t' := t'.kind = t.kind ∧ t'.lexeme = t.lexeme
  id _ _ := True
  kind h := h.1
  made _ _ _ _ _ := ⟨rfl, rfl⟩

theorem shapes_refl (t : Token) : shapes.token t t := ⟨rfl, rfl⟩

/-- The tokens of `i = i + 1` or `i = i - 1`, and those of the step that is short for it. -/
structure Counting where
  target : Token
  equals : Token
  name : Token
  operator : Token
  one : Token
  counted : Token
  step : Token
  target_kind : target.kind = .identifier
  equals_kind : equals.kind = .equal
  one_kind : one.kind = .number (Decimal.nearest 1 0)
  step_kind : step.kind = .plusPlus ∨ step.kind = .minusMinus
  name_like : shapes.token target name
  counted_like : shapes.token target counted
  operator_like : shapes.token operator (stepOperator step)

namespace Counting

variable (c : Counting)

/-- `i = i + 1`. -/
def long : List Token := [c.target, c.equals, c.name, c.operator, c.one]

/-- `i++`. -/
def short : List Token := [c.counted, c.step]

theorem name_kind : c.name.kind = .identifier := c.name_like.1.trans c.target_kind

theorem counted_kind : c.counted.kind = .identifier := c.counted_like.1.trans c.target_kind

theorem operator_kind : Level.sum.operators c.operator.kind = true := by
  rw [← c.operator_like.1, stepOperator]
  split <;> rfl

/-- The tree of the assignment, with the numbers from `k` on. -/
def assigned (k : Nat) : Expr :=
  .assign k c.target
    (.binary (.var (k + 1) c.name) c.operator (.literal (.number (Decimal.nearest 1 0))))

/-- The tree of the step. -/
def stepped (k : Nat) : Expr := .step k (k + 1) c.counted (stepOperator c.step)

/-- The two trees are alike. -/
theorem like (k k' : Nat) : shapes.expr (c.assigned k) (c.stepped k') := by
  intro bs
  have hoperator : ¬c.operator.kind.IsKeyword :=
    Level.not_isKeyword c.operator_kind nofun nofun
  have hname : shapes.token c.name c.counted :=
    ⟨c.counted_like.1.trans c.name_like.1.symm, c.counted_like.2.trans c.name_like.2.symm⟩
  exact .assign ⟨trivial, c.counted_like, .inl c.target_kind⟩
    (.binary (.var ⟨trivial, hname, .inl c.name_kind⟩) ⟨c.operator_like, hoperator⟩ .literal)

end Counting

/-! ### Reading the assignment -/

/-- With enough fuel a rule takes some tokens and gives a tree. -/
def Reaches (rule : Nat → Rule Expr) (s : State) (ts rest : List Token) (e : Expr) (n : Nat) :
    Prop :=
  ∃ m, ∀ fuel, m ≤ fuel → Takes (rule fuel) s ts rest (pure e) n

section Reaches

variable {rule next : Nat → Rule Expr} {s : State} {t : Token} {ts us rest : List Token}
  {e value : Expr} {l tighter : Level} {n k : Nat}

/-- One rule calls the other, and has some fuel left when it is back. -/
theorem Reaches.called (h : Reaches rule s ts rest e n)
    (hnext : ∀ fuel, Takes (rule (fuel + 1)) s ts rest (pure e) n →
      Takes (next (fuel + 2)) s us rest (pure value) k) : Reaches next s us rest value k := by
  obtain ⟨m, hm⟩ := h
  refine ⟨m + 2, fun fuel hfuel => ?_⟩
  obtain ⟨fuel, rfl⟩ : ∃ j, fuel = j + 2 := ⟨fuel - 2, by omega⟩
  exact hnext fuel (hm (fuel + 1) (by omega))

/-- A single token is a value, if it is one and no suffix follows. -/
theorem reaches_unary (hs : s.Proper) (hkind : t.kind ≠ .bang ∧ t.kind ≠ .minus)
    (hprimary : ∀ fuel, Takes (primary (fuel + 1)) s [t] rest (pure e) n)
    (hgrip : grip rest < 9) : Reaches unary s [t] rest e n := by
  refine ⟨2, fun fuel hfuel => ?_⟩
  obtain ⟨fuel, rfl⟩ : ∃ j, fuel = j + 2 := ⟨fuel - 2, by omega⟩
  rw [unary]
  refine Takes.declineToken (fun u hu => ?_) ?_
  · cases hu
    simp [hkind.1, hkind.2]
  · exact Takes.finish (Takes.bind_last (hprimary fuel)) (takes_suffixes hs hgrip)

theorem reaches_level (h : Reaches (operand · l) s ts rest e n) (hgrip : grip rest < l.grip) :
    Reaches (level · l) s ts rest e n := by
  refine h.called fun fuel htakes => ?_
  rw [level]
  exact Takes.finish (Takes.bind_last htakes) (takes_levelRest hgrip)

theorem reaches_operand (hl : l.tighter? = some tighter)
    (h : Reaches (level · tighter) s ts rest e n) : Reaches (operand · l) s ts rest e n := by
  refine h.called fun fuel htakes => ?_
  rw [operand, hl]
  exact htakes

/-- Where a level is read, a looser one is. -/
theorem reaches_looser (hl : l.tighter? = some tighter)
    (h : Reaches (level · tighter) s ts rest e n) (hgrip : grip rest < l.grip) :
    Reaches (level · l) s ts rest e n :=
  reaches_level (reaches_operand hl h) hgrip

theorem reaches_product (h : Reaches unary s ts rest e n) (hgrip : grip rest < 8) :
    Reaches (level · .product) s ts rest e n := by
  refine reaches_level (h.called fun fuel htakes => ?_) hgrip
  rw [operand]
  exact htakes

theorem reaches_conditional (h : Reaches (level · .sum) s ts rest e n) (hgrip : grip rest < 2) :
    Reaches conditional s ts rest e n := by
  have hcomparison : Reaches (level · .comparison) s ts rest e n :=
    reaches_looser rfl h (Nat.lt_trans hgrip (by decide))
  have hequality : Reaches (level · .equality) s ts rest e n :=
    reaches_looser rfl hcomparison (Nat.lt_trans hgrip (by decide))
  have hconjunction : Reaches (level · .conjunction) s ts rest e n :=
    reaches_looser rfl hequality (Nat.lt_trans hgrip (by decide))
  have hdisjunction : Reaches (level · .disjunction) s ts rest e n :=
    reaches_looser rfl hconjunction (Nat.lt_trans hgrip (by decide))
  refine hdisjunction.called fun fuel htakes => ?_
  have hno : begins rest .question = false := begins_of_grip (Nat.ne_of_lt hgrip)
  rw [conditional]
  exact Takes.finish (Takes.bind_last htakes) (Takes.decline hno Takes.done)

/-- Two operands with an operator between them. -/
theorem reaches_join {operator : Token} {left right : Expr}
    (hleft : Reaches (operand · l) s ts (operator :: (us ++ rest)) left n)
    (hoperator : l.operators operator.kind = true)
    (hright : Reaches (operand · l) ((s.after ts n).after [operator] 0) us rest right k)
    (hgrip : grip rest < l.grip) :
    Reaches (level · l) s (ts ++ operator :: us) rest (l.join left operator right) (n + k) := by
  obtain ⟨m, hm⟩ := hleft
  obtain ⟨m', hm'⟩ := hright
  refine ⟨m + m' + 3, fun fuel hfuel => ?_⟩
  obtain ⟨fuel, rfl⟩ : ∃ j, fuel = j + 3 := ⟨fuel - 3, by omega⟩
  simp only [level]
  refine Takes.bind (hm (fuel + 2) (by omega)) ?_ rfl
  rw [levelRest]
  refine Takes.acceptToken hoperator ?_
  exact Takes.finish (Takes.bind_last (hm' (fuel + 1) (by omega))) (takes_levelRest hgrip)

/-- A conditional that no `=` follows is a value. -/
theorem reaches_assignment (h : Reaches conditional s ts rest e n) (hgrip : grip rest = 0) :
    Reaches assignment s ts rest e n := by
  refine h.called fun fuel htakes => ?_
  rw [assignment]
  refine Takes.finish (Takes.bind_last htakes) (Takes.declineToken (fun t ht => ?_) Takes.done)
  have hkind : t.kind.grip = grip rest := grip_of_head ht
  rw [hgrip] at hkind
  rw [decide_eq_false_iff_not]
  intro hequal
  rw [hequal] at hkind
  cases hkind

end Reaches

section Counting

variable (c : Counting) {s : State} {after : List Token}

theorem takes_name {t : Token} (hkind : t.kind = .identifier) (s : State) (rest : List Token)
    (fuel : Nat) : Takes (primary (fuel + 1)) s [t] rest (pure (.var s.nextId t)) 1 := by
  rw [primary]
  refine Takes.peek ?_
  simp only [hkind]
  exact Takes.take (Takes.fresh Takes.done rfl)

theorem takes_one (s : State) (rest : List Token) (fuel : Nat) :
    Takes (primary (fuel + 1)) s [c.one] rest
      (pure (.literal (.number (Decimal.nearest 1 0)))) 0 := by
  rw [primary]
  refine Takes.peek ?_
  simp only [c.one_kind]
  exact Takes.take Takes.done

/-- The target stands alone, since `=` clings to it only as much as to a conditional. -/
theorem reaches_target (hs : s.Proper) :
    Reaches conditional s [c.target] (c.equals :: c.name :: c.operator :: c.one :: after)
      (.var s.nextId c.target) 1 := by
  have hgrip : grip (c.equals :: c.name :: c.operator :: c.one :: after) = 1 := by
    rw [grip_cons, c.equals_kind]
    rfl
  refine reaches_conditional (reaches_looser rfl (reaches_product ?_ ?_) ?_) ?_
  · refine reaches_unary hs (by simp [c.target_kind]) (takes_name c.target_kind s _) ?_
    rw [hgrip]
    decide
  all_goals
    rw [hgrip]
    decide

/-- The value is a sum of two operands. -/
theorem reaches_value (hs : s.Proper) (hafter : grip after = 0) :
    Reaches assignment s [c.name, c.operator, c.one] after
      (.binary (.var s.nextId c.name) c.operator (.literal (.number (Decimal.nearest 1 0)))) 1 := by
  have hgrip : grip (c.operator :: ([c.one] ++ after)) = 7 :=
    Level.grip_of_operators c.operator_kind
  have hleft : Reaches (operand · .sum) s [c.name] (c.operator :: ([c.one] ++ after))
      (.var s.nextId c.name) 1 := by
    refine reaches_operand rfl (reaches_product ?_ (by rw [hgrip]; decide))
    exact reaches_unary hs (by simp [c.name_kind]) (takes_name c.name_kind s _)
      (by rw [hgrip]; decide)
  have hright : ∀ s : State, s.Proper → Reaches (operand · .sum) s [c.one] after
      (.literal (.number (Decimal.nearest 1 0))) 0 := by
    intro s hs
    refine reaches_operand rfl (reaches_product ?_ (by rw [hafter]; decide))
    exact reaches_unary hs (by simp [c.one_kind]) (takes_one c s _) (by rw [hafter]; decide)
  have hsum := reaches_join hleft c.operator_kind (hright _ hs) (by rw [hafter]; decide)
  exact reaches_assignment (reaches_conditional hsum (by rw [hafter]; decide)) hafter

/-- Where nothing clings to the `1`, the assignment is read up to there. -/
theorem reaches_assigned (hs : s.Proper) (hafter : grip after = 0) :
    Reaches expression s c.long after (c.assigned s.nextId) 2 := by
  have htarget : Reaches conditional s [c.target]
      (c.equals :: c.name :: c.operator :: c.one :: after) (.var s.nextId c.target) 1 :=
    reaches_target c hs
  have hproper : ((s.after [c.target] 1).after [c.equals] 0).Proper := hs
  obtain ⟨m, hm⟩ := htarget
  obtain ⟨m', hm'⟩ := reaches_value c hproper hafter
  refine ⟨m + m' + 2, fun fuel hfuel => ?_⟩
  obtain ⟨fuel, rfl⟩ : ∃ j, fuel = j + 2 := ⟨fuel - 2, by omega⟩
  rw [expression]
  refine Takes.get ?_
  have hstep : (s.before (c.long ++ after)).startsStep = false := by
    simp [State.before, State.startsStep, Counting.long, c.equals_kind]
  have hlambda : (s.before (c.long ++ after)).startsLambda = false := by
    simp [State.before, State.startsLambda, Counting.long, c.target_kind]
  simp only [hstep, hlambda, Bool.false_eq_true, if_false]
  rw [assignment]
  have hread : Takes (conditional fuel) s [c.target]
      ([c.equals, c.name, c.operator, c.one] ++ after) (pure (.var s.nextId c.target)) 1 :=
    hm fuel (by omega)
  refine hread.bind ?_ (show 2 = 1 + 1 from rfl)
  refine Takes.acceptToken (by simp [c.equals_kind]) ?_
  exact Takes.finish (Takes.bind_last (hm' fuel (by omega))) Takes.done

/-- A step is read wherever an expression is, up to the semicolon that may stand behind it. -/
theorem takes_stepped (fuel : Nat) (s : State) {ending : List Token}
    (hending : ending = [] ∧ begins after .semicolon = false ∨
      ∃ t, ending = [t] ∧ t.kind = .semicolon) :
    Takes (expression (fuel + 1)) s (c.short ++ ending) after (pure (c.stepped s.nextId)) 2 := by
  have hstarts : (s.before (c.short ++ ending ++ after)).startsStep = true := by
    simp [State.before, State.startsStep, Counting.short, c.counted_kind, c.step_kind]
  rw [expression]
  refine Takes.get ?_
  simp only [hstarts, if_true]
  rw [countingStep]
  refine Takes.take (Takes.take ?_)
  have hids : ∀ s : State, Takes (do
      let readId ← freshId
      let assignId ← freshId
      return .step readId assignId c.counted (stepOperator c.step)) s [] after
      (pure (c.stepped s.nextId)) 2 := fun s => Takes.fresh (Takes.fresh Takes.done rfl) rfl
  rcases hending with ⟨rfl, hnone⟩ | ⟨t, rfl, hkind⟩
  · exact Takes.decline hnone (hids _)
  · exact Takes.accept hkind (hids _)

end Counting

end Parser

end Roteiro
