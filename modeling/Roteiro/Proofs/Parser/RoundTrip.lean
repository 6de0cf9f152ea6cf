import Roteiro.Proofs.Parser.Soundness
import Roteiro.Proofs.Parser.Taking

/-!
# Reading back what was written

The tokens of an accepted program, written by `renderStmts`, are read back as the same program. The
only thing that changes are the numbers of the occurrences: they are given out in the order of the
tokens that are read, which is the order of `idsOfStmts`.

`Reparses x t` says this of the rule for the symbol `x`, in front of every text that may follow. There
is one lemma for each production; `reparses_of_derives` puts them together along a derivation. Two
things make the productions fit into each other. The fuel is measured against the tokens that are
left, with a rank for the rules that are called before a token is read. And the operators of a level
and the suffixes of a value are read by rules that go on from a tree, so a level and a call say where
reading arrives (`GoesOn`) and not what it gives.

* `parseProgram_render`: an accepted program is what its own tokens spell.
-/

namespace Roteiro

namespace Parser

open Grammar

variable {ρ : Nat → Nat}

/-- The numbers are given anew from `k` on, in order. -/
def Renumbers (ρ : Nat → Nat) (k : Nat) (ids : List Nat) : Prop :=
  ids.map ρ = List.range' k ids.length

theorem renumbers_append {k : Nat} {xs ys : List Nat} :
    Renumbers ρ k (xs ++ ys) ↔ Renumbers ρ k xs ∧ Renumbers ρ (k + xs.length) ys := by
  unfold Renumbers
  rw [List.map_append, List.length_append, ← List.range'_append_1]
  constructor
  · intro h
    exact List.append_inj h (by simp)
  · rintro ⟨hx, hy⟩
    rw [hx, hy]

theorem renumbers_cons {k i : Nat} {ids : List Nat} :
    Renumbers ρ k (i :: ids) ↔ ρ i = k ∧ Renumbers ρ (k + 1) ids := by
  simp [Renumbers, List.range'_succ]

/-- A rule reads some tokens again and gives a tree with new numbers, wherever what follows allows
it. A rule that is called before a token is read has a lower rank than its caller. -/
def Again {α : Type} (ρ : Nat → Nat) (rule : Nat → Rule α) (rank : Nat) (ts : List Token)
    (ids : List Nat) (a : α) (Follow : State → List Token → Prop) : Prop :=
  ∀ fuel s rest, s.Proper → Renumbers ρ s.nextId ids → Follow s rest →
    32 * (ts.length + rest.length) + rank ≤ fuel →
      Takes (rule (fuel + 1)) s ts rest (pure a) ids.length

theorem Again.run {α : Type} {rule : Nat → Rule α} {rank : Nat} {ts : List Token} {ids : List Nat}
    {a : α} {Follow : State → List Token → Prop} (h : Again ρ rule rank ts ids a Follow)
    {fuel : Nat} {s : State} {rest : List Token} (hs : s.Proper) (hids : Renumbers ρ s.nextId ids)
    (hfollow : Follow s rest) (hfuel : 32 * (ts.length + rest.length) + rank < fuel) :
    Takes (rule fuel) s ts rest (pure a) ids.length := by
  cases fuel with
  | zero => omega
  | succ fuel => exact h fuel s rest hs hids hfollow (Nat.le_of_lt_succ hfuel)

theorem Again.mono {α : Type} {rule : Nat → Rule α} {rank : Nat} {ts : List Token} {ids : List Nat}
    {a : α} {Follow Follow' : State → List Token → Prop} (h : Again ρ rule rank ts ids a Follow)
    (himp : ∀ s rest, Follow' s rest → Follow s rest) : Again ρ rule rank ts ids a Follow' :=
  fun fuel s rest hs hids hfollow hfuel => h fuel s rest hs hids (himp s rest hfollow) hfuel

/-- A rule that has read some tokens and goes on behind them. -/
def GoesOn (ρ : Nat → Nat) (rule : Nat → Rule Expr) (next : Nat → Expr → Rule Expr) (rank : Nat)
    (e : Expr) (Follow : List Token → Prop) : Prop :=
  ∀ fuel (s : State) rest, s.Proper → Renumbers ρ s.nextId e.ids → Follow rest →
    32 * (e.render.length + rest.length) + rank ≤ fuel → ∃ left, 32 * rest.length ≤ left ∧
      Takes (rule (fuel + 1)) s e.render rest (next (left + 1) (e.rename ρ)) e.ids.length

/-- What reading the tokens of a tree again means for the rule of its symbol. -/
def Reparses (ρ : Nat → Nat) : (x : Symbol) → x.Tree → Prop
  | .declarations inLoop, ss => ∀ inBlock,
    Again ρ (declarations · inBlock) 20 (renderStmts ss) (idsOfStmts ss) (renameStmts ρ ss)
      fun s rest => (inLoop = true → s.loops ≠ 0) ∧
        (rest = [] ∨ inBlock = true ∧ begins rest .rightBrace = true)
  | .declaration inLoop, d => Again ρ declaration 19 d.render d.ids (d.rename ρ) fun s rest =>
      (inLoop = true → s.loops ≠ 0) ∧ begins rest .elseKw = false
  | .statement inLoop closed, d => Again ρ statement 18 d.render d.ids (d.rename ρ) fun s rest =>
      (inLoop = true → s.loops ≠ 0) ∧ (closed = false → begins rest .elseKw = false)
  | .methods, fs =>
    Again ρ methodList 23 (renderFunctions fs) (idsOfFunctions fs) (renameFunctions ρ fs)
      fun _ rest => begins rest .rightBrace = true
  | .function name?, f => ∀ name, name? = some name →
    Again ρ (functionRest · name) 22 f.render f.ids (f.rename ρ) fun _ _ => True
  | .variableRest, d => Again ρ declaration 19 d.render d.ids (d.rename ρ) fun _ _ => True
  | .expressionStatement, d =>
    Again ρ expressionStatement 17 d.render d.ids (d.rename ρ) fun _ _ => True
  | .loopStart, some d => Again ρ declaration 19 d.render d.ids (d.rename ρ) fun _ _ => True
  | .loopStart, none => True
  | .optionalExpression, some e =>
    Again ρ expression 16 e.render e.ids (e.rename ρ) fun _ rest => grip rest = 0
  | .optionalExpression, none => True
  | .expression, e => Again ρ expression 16 e.render e.ids (e.rename ρ) fun _ rest => grip rest = 0
  | .assignment, e => Again ρ assignment 15 e.render e.ids (e.rename ρ) fun _ rest => grip rest = 0
  | .conditional, e =>
    Again ρ conditional 14 e.render e.ids (e.rename ρ) fun _ rest => grip rest < 2
  | .level l, e => GoesOn ρ (level · l) (levelRest · l) (l.rank + 1) e fun rest => grip rest ≤ l.grip
  | .operand l, e =>
    Again ρ (operand · l) l.rank e.render e.ids (e.rename ρ) fun _ rest => grip rest ≤ l.grip
  | .unary, e => Again ρ unary 1 e.render e.ids (e.rename ρ) fun _ rest => grip rest < 9
  | .call, e => GoesOn ρ unary suffixes 1 e fun _ => True
  | .primary, e => Again ρ primary 0 e.render e.ids (e.rename ρ) fun _ _ => True
  | .expressions, es => ∀ closing limited, closing = .rightParen ∨ closing = .rightBracket →
    (limited = true → es.length ≤ 255) →
    Again ρ (expressions · closing limited) 18 (renderExprs es) (idsOfExprs es) (renameExprs ρ es)
      fun _ rest => begins rest closing = true
  | .expressionList, es => ∀ limited count, (limited = true → count + es.length ≤ 255) →
    Again ρ (expressionList · limited count) 17 (renderExprs es) (idsOfExprs es) (renameExprs ρ es)
      fun _ rest => grip rest = 0 ∧ begins rest .comma = false

/-! ### Values -/

theorem reparses_constant (value : Literal) : Reparses ρ .primary (.literal value) := by
  intro fuel s rest _ _ _ _
  unfold primary
  refine Takes.peek ?_
  cases value with
  | boolean b => cases b <;> exact Takes.take Takes.done
  | _ => exact Takes.take Takes.done

theorem reparses_receiver {id : Nat} {keyword : Token} (h : keyword.kind = .selfKw) :
    Reparses ρ .primary (.self id keyword) := by
  intro fuel s rest _ hids _ _
  obtain ⟨hid, -⟩ := renumbers_cons.mp hids
  unfold primary
  refine Takes.peek ?_
  simp only [h, Expr.rename, hid]
  exact Takes.take (Takes.fresh Takes.done rfl)

theorem reparses_name {id : Nat} {name : Token} (h : name.kind = .identifier) :
    Reparses ρ .primary (.var id name) := by
  intro fuel s rest _ hids _ _
  obtain ⟨hid, -⟩ := renumbers_cons.mp hids
  unfold primary
  refine Takes.peek ?_
  simp only [h, Expr.rename, hid]
  exact Takes.take (Takes.fresh Takes.done rfl)

theorem reparses_group {inner : Expr} (h : Reparses ρ .expression inner) :
    Reparses ρ .primary (.group inner) := by
  intro fuel s rest hs hids _ hfuel
  simp only [Expr.render, List.length_cons, List.length_append, List.length_nil] at hfuel ⊢
  unfold primary
  refine Takes.peek (Takes.take ?_)
  refine Takes.bind (m := 0) (Again.run h hs hids rfl (by simp; omega)) ?_ rfl
  exact Takes.expect rfl Takes.done

theorem reparses_array {bracket : Token} {elements : List Expr} (hbracket : bracket.kind = .leftBracket)
    (h : Reparses ρ .expressions elements) : Reparses ρ .primary (.array bracket elements) := by
  intro fuel s rest hs hids _ hfuel
  simp only [Expr.render, List.length_cons, List.length_append, List.length_nil] at hfuel ⊢
  unfold primary
  refine Takes.peek ?_
  simp only [hbracket]
  refine Takes.take ?_
  refine Takes.bind (m := 0)
    (Again.run (h _ _ (.inr rfl) (by simp)) hs hids rfl (by simp; omega)) ?_ rfl
  exact Takes.expect rfl Takes.done

/-! ### Suffixes and operators -/

/-- A token that is no operator in front of a value. -/
theorem not_prefix_of_startsValue {ts rest : List Token} (h : Starts Kind.startsValue ts) :
    ∀ t ∈ (ts ++ rest).head?, (decide (t.kind = .bang) || decide (t.kind = .minus)) = false := by
  obtain ⟨t, us, rfl, ht⟩ := h
  rintro u ⟨⟩
  rw [Bool.eq_false_iff]
  intro hk
  simp only [Bool.or_eq_true, decide_eq_true_eq] at hk
  rcases hk with hk | hk <;> rw [hk] at ht <;> cases ht

theorem reparses_noSuffix {e : Expr} (he : Reparses ρ .primary e)
    (hstarts : Starts Kind.startsValue e.render) : Reparses ρ .call e := by
  intro fuel s rest hs hids _ hfuel
  have hpos : 0 < e.render.length := List.length_pos_iff.mpr hstarts.ne_nil
  obtain ⟨left, rfl⟩ : ∃ left, fuel = left + 1 := ⟨fuel - 1, by omega⟩
  refine ⟨left, by omega, ?_⟩
  unfold unary
  refine Takes.declineToken (not_prefix_of_startsValue hstarts) ?_
  exact Takes.bind_last (Again.run he hs hids trivial (by omega))

theorem reparses_property {object : Expr} {name : Token} (hname : name.kind = .identifier)
    (h : Reparses ρ .call object) : Reparses ρ .call (.get object name) := by
  intro fuel s rest hs hids _ hfuel
  simp only [Expr.render, List.length_cons, List.length_append, List.length_nil] at hfuel ⊢
  obtain ⟨left, hleft, htakes⟩ := h fuel s (_ :: name :: rest) hs hids trivial (by simp; omega)
  simp only [List.length_cons] at hleft
  obtain ⟨left, rfl⟩ : ∃ k, left = k + 1 := ⟨left - 1, by omega⟩
  refine ⟨left, by omega, Takes.trans (m := 0) htakes ?_ rfl⟩
  rw [suffixes]
  exact Takes.peek (Takes.take (Takes.expect hname Takes.done))

theorem reparses_call {callee : Expr} {paren : Token} {arguments : List Expr}
    (hparen : paren.kind = .rightParen) (hlimit : arguments.length ≤ 255)
    (hcallee : Reparses ρ .call callee) (harguments : Reparses ρ .expressions arguments) :
    Reparses ρ .call (.call callee paren arguments) := by
  intro fuel s rest hs hids _ hfuel
  simp only [Expr.render, Expr.ids, List.length_cons, List.length_append, List.length_nil,
    renumbers_append] at hfuel hids ⊢
  obtain ⟨left, hleft, htakes⟩ := hcallee fuel s (_ :: (renderExprs arguments ++ [paren] ++ rest))
    hs hids.1 trivial (by simp; omega)
  simp only [List.length_cons, List.length_append] at hleft
  obtain ⟨left, rfl⟩ : ∃ k, left = k + 1 := ⟨left - 1, by omega⟩
  refine ⟨left, by omega, Takes.trans htakes ?_ rfl⟩
  rw [suffixes]
  refine Takes.peek (Takes.take ?_)
  have hlist := harguments .rightParen true (.inl rfl) fun _ => hlimit
  refine Takes.bind (m := 0) (Again.run hlist hs hids.2 ?_ (by simp; omega)) ?_ rfl
  · simp [begins_cons, hparen]
  · exact Takes.expect hparen Takes.done

theorem reparses_entry {bracket : Token} {base key : Expr} (hbracket : bracket.kind = .leftBracket)
    (hbase : Reparses ρ .call base) (hkey : Reparses ρ .expression key) :
    Reparses ρ .call (.index bracket base key) := by
  intro fuel s rest hs hids _ hfuel
  simp only [Expr.render, Expr.ids, List.length_cons, List.length_append, List.length_nil,
    renumbers_append] at hfuel hids ⊢
  obtain ⟨left, hleft, htakes⟩ := hbase fuel s (_ :: (key.render ++ [_] ++ rest)) hs hids.1 trivial
    (by simp; omega)
  simp only [List.length_cons, List.length_append] at hleft
  obtain ⟨left, rfl⟩ : ∃ k, left = k + 1 := ⟨left - 1, by omega⟩
  refine ⟨left, by omega, Takes.trans htakes ?_ rfl⟩
  rw [suffixes]
  refine Takes.peek ?_
  simp only [hbracket]
  refine Takes.take ?_
  refine Takes.bind (m := 0) (Again.run hkey hs hids.2 rfl (by simp; omega)) ?_ rfl
  exact Takes.expect rfl Takes.done

theorem reparses_plain {e : Expr} (h : Reparses ρ .call e) : Reparses ρ .unary e := by
  intro fuel s rest hs hids hfollow hfuel
  obtain ⟨left, -, htakes⟩ := h fuel s rest hs hids trivial hfuel
  exact Takes.finish htakes (takes_suffixes hs hfollow)

theorem reparses_unary {operator : Token} {operand : Expr}
    (hoperator : operator.kind = .bang ∨ operator.kind = .minus)
    (h : Reparses ρ .unary operand) : Reparses ρ .unary (.unary operator operand) := by
  intro fuel s rest hs hids hfollow hfuel
  simp only [Expr.render, List.length_cons] at hfuel ⊢
  unfold unary
  refine Takes.acceptToken (by simpa using hoperator) ?_
  exact Takes.bind_last (Again.run h hs hids hfollow (by omega))

theorem reparses_unaryOperand {l : Level} {e : Expr} (hl : l.tighter? = none)
    (h : Reparses ρ .unary e) : Reparses ρ (.operand l) e := by
  intro fuel s rest hs hids hfollow hfuel
  cases l <;> cases hl
  have hgrip : grip rest < 9 := Nat.lt_of_le_of_lt hfollow (by decide)
  simp only [Level.rank] at hfuel
  exact Again.run h hs hids hgrip (by omega)

theorem reparses_firstOperand {l : Level} {e : Expr} (h : Reparses ρ (.operand l) e)
    (hne : e.render ≠ []) : Reparses ρ (.level l) e := by
  intro fuel s rest hs hids hfollow hfuel
  have hpos : 0 < e.render.length := List.length_pos_iff.mpr hne
  obtain ⟨left, rfl⟩ : ∃ k, fuel = k + 1 := ⟨fuel - 1, by omega⟩
  refine ⟨left, by omega, ?_⟩
  simp only [level]
  have hoperand : Takes (operand (left + 1) l) s e.render rest (pure (e.rename ρ)) e.ids.length :=
    h left s rest hs hids hfollow (by omega)
  exact Takes.bind_last hoperand

theorem rename_join (l : Level) (left right : Expr) (operator : Token) :
    (l.join left operator right).rename ρ = l.join (left.rename ρ) operator (right.rename ρ) := by
  cases l <;> rfl

theorem reparses_join {l : Level} {operator : Token} {left right : Expr}
    (hoperator : l.operators operator.kind = true) (hleft : Reparses ρ (.level l) left)
    (hright : Reparses ρ (.operand l) right) :
    Reparses ρ (.level l) (l.join left operator right) := by
  intro fuel s rest hs hids hfollow hfuel
  have hrank := l.rank_le
  simp only [render_join, ids_join, rename_join, List.length_cons, List.length_append,
    renumbers_append] at hfuel hids ⊢
  obtain ⟨more, hmore, htakes⟩ := hleft fuel s (operator :: (right.render ++ rest)) hs hids.1
    (Nat.le_of_eq (Level.grip_of_operators hoperator)) (by simp; omega)
  simp only [List.length_cons, List.length_append] at hmore
  obtain ⟨more, rfl⟩ : ∃ k, more = k + 1 := ⟨more - 1, by omega⟩
  refine ⟨more, by omega, Takes.trans htakes ?_ rfl⟩
  simp only [levelRest]
  refine Takes.acceptToken hoperator ?_
  have hoperand : Again ρ (operand · l) _ _ _ _ _ := hright
  exact Takes.bind_last (hoperand.run hs hids.2 hfollow (by omega))

/-- A whole level. -/
theorem again_level {l : Level} {e : Expr} (h : Reparses ρ (.level l) e) :
    Again ρ (level · l) (l.rank + 1) e.render e.ids (e.rename ρ) fun _ rest => grip rest < l.grip := by
  intro fuel s rest hs hids hfollow hfuel
  obtain ⟨left, -, htakes⟩ := h fuel s rest hs hids (Nat.le_of_lt hfollow) hfuel
  exact Takes.finish htakes (takes_levelRest hfollow)

theorem reparses_tighterOperand {l tighter : Level} {e : Expr} (hl : l.tighter? = some tighter)
    (h : Reparses ρ (.level tighter) e) : Reparses ρ (.operand l) e := by
  intro fuel s rest hs hids hfollow hfuel
  have hgrip : grip rest < tighter.grip := by
    rw [Level.grip_of_tighter hl]
    exact Nat.lt_succ_of_le hfollow
  have hrank := Level.rank_of_tighter hl
  simp only [operand, hl]
  exact Again.run (again_level h) hs hids hgrip (by omega)

/-- A tighter level is a looser one with a single operand. -/
theorem reparses_looser {l tighter : Level} {e : Expr} (hl : l.tighter? = some tighter)
    (h : Reparses ρ (.level tighter) e) (hne : e.render ≠ []) : Reparses ρ (.level l) e :=
  reparses_firstOperand (reparses_tighterOperand hl h) hne

/-! ### Choices and assignments -/

theorem reparses_choice {test yes no : Expr} (htest : Reparses ρ (.level .disjunction) test)
    (hyes : Reparses ρ .expression yes) (hno : Reparses ρ .conditional no) :
    Reparses ρ .conditional (.conditional test yes no) := by
  intro fuel s rest hs hids hfollow hfuel
  simp only [Expr.render, Expr.ids, List.length_cons, List.length_append,
    renumbers_append] at hfuel hids ⊢
  unfold conditional
  have htest : Takes (level fuel .disjunction) s test.render (.plain .question "?" ::
      (yes.render ++ .plain .colon ":" :: no.render) ++ rest) (pure (test.rename ρ))
      test.ids.length :=
    (again_level htest).run hs hids.1 (by decide : 2 < 3) (by simp [Level.rank]; omega)
  refine Takes.bind htest (Takes.accept rfl ?_) rfl
  refine Takes.bind (Again.run hyes hs hids.2.1 rfl (by simp; omega)) ?_ rfl
  refine Takes.expect rfl ?_
  exact Takes.bind_last (Again.run hno hs hids.2.2 hfollow (by omega))

theorem reparses_noChoice {e : Expr} (h : Reparses ρ (.level .disjunction) e) :
    Reparses ρ .conditional e := by
  intro fuel s rest hs hids hfollow hfuel
  have hlevel : Takes (level fuel .disjunction) s e.render rest (pure (e.rename ρ)) e.ids.length :=
    (again_level h).run hs hids (Nat.lt_succ_of_lt hfollow) (by simp only [Level.rank]; omega)
  have hno : begins rest .question = false := begins_of_grip (Nat.ne_of_lt hfollow)
  unfold conditional
  exact Takes.finish (Takes.bind_last hlevel) (Takes.decline hno Takes.done)

/-- An operator of the sum with its operands, or less, where a choice may stand. -/
theorem reparses_conditional_of_sum {e : Expr} (h : Reparses ρ (.level .sum) e)
    (hne : e.render ≠ []) : Reparses ρ .conditional e := by
  have hcomparison : Reparses ρ (.level .comparison) e := reparses_looser rfl h hne
  have hequality : Reparses ρ (.level .equality) e := reparses_looser rfl hcomparison hne
  have hconjunction : Reparses ρ (.level .conjunction) e := reparses_looser rfl hequality hne
  exact reparses_noChoice (reparses_looser rfl hconjunction hne)

theorem reparses_product_of_call {e : Expr} (h : Reparses ρ .call e) (hne : e.render ≠ []) :
    Reparses ρ (.level .product) e :=
  reparses_firstOperand (reparses_unaryOperand rfl (reparses_plain h)) hne

theorem reparses_conditional_of_call {e : Expr} (h : Reparses ρ .call e) (hne : e.render ≠ []) :
    Reparses ρ .conditional e :=
  reparses_conditional_of_sum (reparses_looser rfl (reparses_product_of_call h hne) hne) hne

theorem reparses_conditionalAssignment {e : Expr} (h : Reparses ρ .conditional e) :
    Reparses ρ .assignment e := by
  intro fuel s rest hs hids hfollow hfuel
  have hlt : grip rest < 2 := by rw [hfollow]; decide
  have htarget : Takes (conditional fuel) s e.render rest (pure (e.rename ρ)) e.ids.length :=
    Again.run h hs hids hlt (by omega)
  have hno : ∀ t ∈ rest.head?, decide (t.kind = .equal) = false := by
    intro t ht
    have hgrip := grip_of_head ht
    rw [hfollow] at hgrip
    rw [decide_eq_false_iff_not]
    intro hk
    rw [hk] at hgrip
    cases hgrip
  unfold assignment
  exact Takes.finish (Takes.bind_last htarget) (Takes.declineToken hno Takes.done)

theorem rename_assigned? {target value e : Expr} (h : target.assigned? value = some e) :
    (target.rename ρ).assigned? (value.rename ρ) = some (e.rename ρ) := by
  unfold Expr.assigned? at h
  split at h <;> cases h <;> rfl

theorem render_assigned? {target value e : Expr} (h : target.assigned? value = some e) :
    e.render = target.render ++ .plain .equal "=" :: value.render := by
  unfold Expr.assigned? at h
  split at h <;> cases h <;> simp

/-- Everything that can be assigned to is written back as a target, the sign and the value. -/
theorem reparses_assigned {target value e : Expr} (he : target.assigned? value = some e)
    (htarget : Reparses ρ .conditional target) (hvalue : Reparses ρ .assignment value) :
    Reparses ρ .assignment e := by
  intro fuel s rest hs hids hfollow hfuel
  simp only [render_assigned? he, ids_assigned? he, List.length_cons, List.length_append,
    renumbers_append] at hfuel hids ⊢
  unfold assignment
  refine Takes.bind (Again.run htarget hs hids.1 (by decide : 1 < 2) (by simp; omega)) ?_ rfl
  refine Takes.acceptToken rfl ?_
  refine Takes.finish (Takes.bind_last (Again.run hvalue hs hids.2 hfollow (by omega))) ?_
  rw [rename_assigned? he]
  exact Takes.done

theorem reparses_assignName {id : Nat} {name : Token} {value : Expr} (hname : name.kind = .identifier)
    (hvalue : Reparses ρ .assignment value) : Reparses ρ .assignment (.assign id name value) := by
  have hstarts : Starts Kind.startsValue (Expr.var id name).render := .cons (by rw [hname]; rfl)
  have htarget : Reparses ρ .call (.var id name) :=
    reparses_noSuffix (reparses_name hname) hstarts
  exact reparses_assigned rfl (reparses_conditional_of_call htarget hstarts.ne_nil) hvalue

/-- A counting step is read back as the assignment it stands for. -/
theorem reparses_step {readId assignId : Nat} {name step : Token}
    (hname : name.kind = .identifier) :
    Reparses ρ .assignment (.step readId assignId name (stepOperator step)) := by
  have hoperator : Level.sum.operators (stepOperator step).kind = true := by
    unfold stepOperator
    split <;> rfl
  have hread : Reparses ρ .call (.var readId name) :=
    reparses_noSuffix (reparses_name hname) (.cons (by rw [hname]; rfl))
  have hone : Reparses ρ .call (.literal (.number (Decimal.nearest 1 0))) :=
    reparses_noSuffix (reparses_constant _) (.cons (startsValue_token _))
  have hleft : Reparses ρ (.level .sum) (.var readId name) :=
    reparses_looser rfl (reparses_product_of_call hread (List.cons_ne_nil _ _)) (List.cons_ne_nil _ _)
  have hright : Reparses ρ (.operand .sum) (.literal (.number (Decimal.nearest 1 0))) :=
    reparses_tighterOperand rfl (reparses_product_of_call hone (List.cons_ne_nil _ _))
  have hsum := reparses_join hoperator hleft hright
  exact reparses_assignName hname
    (reparses_conditionalAssignment (reparses_conditional_of_sum hsum (List.cons_ne_nil _ _)))

/-! ### Expressions and lambdas -/

theorem reparses_assignmentExpression {e : Expr} (h : Reparses ρ .assignment e)
    (hplain : PlainPhrase e.render) : Reparses ρ .expression e := by
  intro fuel s rest hs hids hfollow hfuel
  obtain ⟨hlambda, hstep⟩ := hplain.plain (s.before (e.render ++ rest)) rest rfl
    fun t ht => turns_of_grip hfollow ht
  unfold expression
  refine Takes.get ?_
  simp only [hstep, hlambda, Bool.false_eq_true, if_false]
  exact Again.run h hs hids hfollow (by omega)

/-- Parameter names, of which `count` have been read before. -/
theorem takes_parameterList {ts names : List Token} (h : Names ts names) {fuel count : Nat} {s : State}
    {rest : List Token} (hlimit : count + names.length ≤ 255) (hrest : begins rest .comma = false)
    (hfuel : names.length ≤ fuel) :
    Takes (parameterList fuel count) s (renderNames names) rest (pure names) 0 := by
  induction h generalizing fuel count s with
  | last hname =>
    obtain ⟨fuel, rfl⟩ : ∃ k, fuel = k + 1 := ⟨fuel - 1, by simp at hfuel; omega⟩
    unfold parameterList
    rw [if_neg (by simp only [maxArguments, List.length_singleton] at *; omega)]
    refine Takes.expect hname ?_
    exact Takes.decline hrest Takes.done
  | more hname _ others ih =>
    obtain ⟨fuel, rfl⟩ : ∃ k, fuel = k + 1 := ⟨fuel - 1, by simp at hfuel; omega⟩
    rw [List.length_cons] at hlimit hfuel
    unfold parameterList
    rw [if_neg (by simp only [maxArguments]; omega), renderNames_cons others.ne_nil]
    refine Takes.expect hname (Takes.accept rfl ?_)
    exact Takes.bind_last (ih (by omega) (by omega))

theorem takes_parameters {ts names : List Token} (h : Parameters ts names) {fuel : Nat} {s : State}
    {rest : List Token} (hrest : begins rest .rightParen = true) (hfuel : names.length ≤ fuel) :
    Takes (parameters fuel) s (renderNames names) rest (pure names) 0 := by
  unfold parameters
  refine Takes.check ?_
  obtain ⟨⟨-, rfl⟩ | hnames, hlimit⟩ := h
  · rw [show begins (renderNames [] ++ rest) .rightParen = true from hrest]
    exact Takes.done
  · have hname : Starts (· = .identifier) (renderNames names) := by
      cases hnames with
      | last hname => exact .cons (by simp [hname])
      | more hname _ others =>
        rw [renderNames_cons others.ne_nil]
        exact .cons (by simp [hname])
    rw [begins_eq_false hname (by simp)]
    refine takes_parameterList hnames (by omega) ?_ hfuel
    cases rest with
    | nil => rfl
    | cons t us =>
      simp only [begins_cons, decide_eq_true_eq] at hrest
      simp [begins_cons, hrest]

theorem length_le_renderNames (names : List Token) : names.length ≤ (renderNames names).length := by
  induction names with
  | nil => exact Nat.le_refl _
  | cons name names ih =>
    cases names with
    | nil => exact Nat.le_refl _
    | cons => simpa [renderNames] using Nat.le_succ_of_le ih

/-- Behind a list of parameters only the arrow decides. -/
theorem arrowAhead_renderNames {ts names : List Token} (h : Parameters ts names) {closing : Token}
    (hclosing : closing.kind = .rightParen) (rest : List Token) :
    arrowAhead (renderNames names ++ closing :: rest) = begins rest .arrow := by
  have hend : arrowAhead (closing :: rest) = begins rest .arrow := by
    simp [arrowAhead, hclosing, begins]
  obtain ⟨⟨-, rfl⟩ | hnames, -⟩ := h
  · exact hend
  · induction hnames with
    | last hname =>
      rw [← hend]
      simp [renderNames, arrowAhead, hname]
    | more hname _ others ih =>
      rw [renderNames_cons others.ne_nil, ← ih]
      simp [arrowAhead, hname, Token.plain]

theorem again_block {inLoop : Bool} {body : List Stmt} (h : Reparses ρ (.declarations inLoop) body) :
    Again ρ block 21 (renderStmts body ++ [.plain .rightBrace "\x7d"]) (idsOfStmts body)
      (renameStmts ρ body) fun s _ => inLoop = true → s.loops ≠ 0 := by
  intro fuel s rest hs hids hfollow hfuel
  simp only [List.length_append, List.length_cons, List.length_nil] at hfuel
  have hbody : Takes (declarations fuel true) s (renderStmts body)
      (.plain .rightBrace "\x7d" :: rest) (pure (renameStmts ρ body)) (idsOfStmts body).length :=
    (h true).run hs hids ⟨hfollow, .inr ⟨rfl, rfl⟩⟩ (by simp; omega)
  unfold block
  exact Takes.bind (m := 0) hbody (Takes.expect rfl Takes.done) rfl

/-- The parameters and the arrow of a lambda; what stands behind the arrow is still to be read. -/
theorem takes_lambdaHead {ps params : List Token} (hparams : Parameters ps params)
    {opening closing arrow : Token} (hopening : opening.kind = .leftParen)
    (hclosing : closing.kind = .rightParen) (harrow : arrow.kind = .arrow) {fuel : Nat}
    (hfuel : params.length ≤ fuel) (s : State) (rest : List Token) :
    Takes (expression (fuel + 2)) s (opening :: (renderNames params ++ [closing, arrow])) rest (do
      if ← accept .leftBrace then
        let body ← withLoops (fun _ => 0) (block fuel)
        return .lambda ⟨none, params, body⟩
      else
        let value ← expression fuel
        return .lambda ⟨none, params, [.result arrow (some value)]⟩) 0 := by
  have hahead := arrowAhead_renderNames hparams hclosing (arrow :: rest)
  have htokens : opening :: (renderNames params ++ [closing, arrow]) ++ rest =
      opening :: (renderNames params ++ closing :: arrow :: rest) := by simp
  have hstep : (s.before (opening :: (renderNames params ++ [closing, arrow]) ++ rest)).startsStep =
      false := by
    cases hnames : renderNames params <;>
      simp [State.startsStep, State.before, hopening]
  have hlambda : (s.before (opening :: (renderNames params ++ [closing, arrow]) ++
      rest)).startsLambda = true := by
    simp only [State.startsLambda, State.before, htokens, hahead]
    simp [hopening, begins_cons, harrow]
  rw [expression]
  refine Takes.get ?_
  simp only [hstep, hlambda, Bool.false_eq_true, if_false, if_true]
  rw [lambda]
  refine Takes.take ?_
  refine Takes.bind (m := 0) (takes_parameters hparams ?_ hfuel) ?_ rfl
  · simp [begins_cons, hclosing]
  · exact Takes.expect hclosing (Takes.expect harrow Takes.done)

theorem reparses_lambdaBlock {ps params : List Token} {body : List Stmt}
    (hparams : Parameters ps params) (hrender : renderLambdaBody body = .plain .arrow "=>" ::
      .plain .leftBrace "\x7b" :: (renderStmts body ++ [.plain .rightBrace "\x7d"]))
    (hbody : Reparses ρ (.declarations false) body) :
    Reparses ρ .expression (.lambda ⟨none, params, body⟩) := by
  intro fuel s rest hs hids _ hfuel
  have hlength := length_le_renderNames params
  have htokens : (Expr.lambda ⟨none, params, body⟩).render = (.plain .leftParen "(" ::
      (renderNames params ++ [.plain .rightParen ")", .plain .arrow "=>"])) ++
        .plain .leftBrace "\x7b" :: (renderStmts body ++ [.plain .rightBrace "\x7d"]) := by
    simp [hrender]
  rw [htokens] at hfuel ⊢
  simp only [List.length_cons, List.length_append, List.length_nil] at hfuel
  obtain ⟨fuel, rfl⟩ : ∃ k, fuel = k + 1 := ⟨fuel - 1, by omega⟩
  refine Takes.trans (takes_lambdaHead hparams rfl rfl rfl (by omega) s _) ?_ (Nat.zero_add _).symm
  refine Takes.accept rfl (Takes.bind_last (Takes.withLoops ?_))
  exact (again_block hbody).run hs hids (by simp) (by simp; omega)

theorem reparses_lambdaValue {ps params : List Token} {arrow : Token} {value : Expr}
    (hparams : Parameters ps params) (harrow : arrow.kind = .arrow)
    (hstarts : Starts Kind.startsExpression value.render) (hvalue : Reparses ρ .expression value) :
    Reparses ρ .expression (.lambda ⟨none, params, [.result arrow (some value)]⟩) := by
  intro fuel s rest hs hids hfollow hfuel
  have hlength := length_le_renderNames params
  have htokens : (Expr.lambda ⟨none, params, [.result arrow (some value)]⟩).render =
      (.plain .leftParen "(" :: (renderNames params ++ [.plain .rightParen ")", arrow])) ++
        value.render := by
    simp [renderLambdaBody_value harrow]
  have hids₁ : (Expr.lambda ⟨none, params, [.result arrow (some value)]⟩).ids = value.ids := by
    simp
  rw [htokens] at hfuel ⊢
  rw [hids₁] at hids ⊢
  simp only [List.length_cons, List.length_append, List.length_nil] at hfuel
  obtain ⟨fuel, rfl⟩ : ∃ k, fuel = k + 1 := ⟨fuel - 1, by omega⟩
  refine Takes.trans (takes_lambdaHead hparams rfl rfl harrow (by omega) s _) ?_
    (Nat.zero_add _).symm
  refine Takes.decline (begins_eq_false hstarts rfl rest) ?_
  exact Takes.bind_last (Again.run hvalue hs hids hfollow (by omega))

/-! ### Lists of expressions -/

/-- There is no complaint about an argument within the limit. -/
theorem not_over_limit {limited : Bool} {count more : Nat}
    (h : limited = true → count + (more + 1) ≤ 255) :
    ¬(limited && decide (maxArguments ≤ count)) = true := by
  intro hover
  rw [Bool.and_eq_true, decide_eq_true_eq] at hover
  have hle := h hover.1
  have hge : 255 ≤ count := hover.2
  omega

theorem reparses_lastExpression {e : Expr} (he : Reparses ρ .expression e) :
    Reparses ρ .expressionList [e] := by
  intro limited count hlimit fuel s rest hs hids hfollow hfuel
  simp only [renderExprs, renderMoreExprs, idsOfExprs, List.append_nil] at hids hfuel ⊢
  simp only [expressionList]
  rw [if_neg (not_over_limit hlimit)]
  refine Takes.finish (Takes.bind_last (Again.run he hs hids hfollow.1 (by omega))) ?_
  exact Takes.decline hfollow.2 Takes.done

theorem reparses_moreExpressions {e : Expr} {es : List Expr} (he : Reparses ρ .expression e)
    (hes : Reparses ρ .expressionList es) (hne : es ≠ []) :
    Reparses ρ .expressionList (e :: es) := by
  intro limited count hlimit fuel s rest hs hids hfollow hfuel
  simp only [renderExprs_cons hne, idsOfExprs, List.length_cons, List.length_append,
    renumbers_append] at hids hfuel hlimit ⊢
  simp only [expressionList]
  rw [if_neg (not_over_limit hlimit)]
  refine Takes.bind (Again.run he hs hids.1 rfl (by simp; omega)) ?_ rfl
  refine Takes.accept rfl ?_
  have hmore := hes limited (count + 1) fun h => by have := hlimit h; omega
  exact Takes.bind_last (hmore.run hs hids.2 hfollow (by omega))

theorem reparses_noExpressions : Reparses ρ .expressions [] := by
  intro closing limited _ _ fuel s rest hs hids hfollow hfuel
  simp only [expressions]
  refine Takes.check ?_
  rw [show begins (renderExprs [] ++ rest) closing = true from hfollow]
  exact Takes.done

theorem reparses_someExpressions {es : List Expr} (hes : Reparses ρ .expressionList es)
    (hstarts : Starts Kind.startsExpression (renderExprs es)) : Reparses ρ .expressions es := by
  intro closing limited hclosing hlimit fuel s rest hs hids hfollow hfuel
  have hno : begins (renderExprs es ++ rest) closing = false := by
    rcases hclosing with rfl | rfl <;> exact begins_eq_false hstarts rfl rest
  have hfollow' : grip rest = 0 ∧ begins rest .comma = false := by
    cases rest with
    | nil => exact ⟨rfl, rfl⟩
    | cons t us =>
      simp only [begins_cons, decide_eq_true_eq] at hfollow
      rcases hclosing with rfl | rfl <;> simp [begins_cons, hfollow, Kind.grip]
  simp only [expressions]
  refine Takes.check ?_
  rw [hno]
  have hlist := hes limited 0 fun h => by simpa using hlimit h
  exact hlist.run hs hids hfollow' (by omega)

/-! ### Statements -/

theorem reparses_expressionStatement {value : Expr} (hvalue : Reparses ρ .expression value)
    (hphrase : Phrase value.render) : Reparses ρ .expressionStatement (.expression value) := by
  intro fuel s rest hs hids _ hfuel
  simp only [Stmt.render, Stmt.ids, List.length_cons, List.length_append, List.length_nil] at hfuel ⊢
  unfold expressionStatement
  refine Takes.bind (m := 0) (Again.run hvalue hs hids rfl (by simp; omega)) ?_ rfl
  exact Takes.terminate rfl (State.open_after _ _ hphrase.ends) Takes.done

theorem reparses_bareExpression {inLoop closed : Bool} {d : Stmt}
    (hd : Reparses ρ .expressionStatement d) (hstarts : Starts Kind.startsExpression d.render) :
    Reparses ρ (.statement inLoop closed) d := by
  intro fuel s rest hs hids _ hfuel
  have hrun := Again.run hd hs hids trivial (show 32 * (d.render.length + rest.length) + 17 < fuel
    by omega)
  obtain ⟨t, us, htokens, ht⟩ := hstarts
  rw [htokens] at hrun ⊢
  unfold statement
  refine Takes.peek ?_
  -- none of the keywords of a statement starts an expression
  split
  case h_9 => exact hrun
  all_goals
    next hk =>
      rw [hk] at ht
      cases ht

theorem reparses_print {inLoop closed : Bool} {value : Expr} (hvalue : Reparses ρ .expression value)
    (hphrase : Phrase value.render) : Reparses ρ (.statement inLoop closed) (.print value) := by
  intro fuel s rest hs hids _ hfuel
  simp only [Stmt.render, Stmt.ids, List.length_cons, List.length_append, List.length_nil] at hfuel ⊢
  unfold statement
  refine Takes.peek (Takes.take ?_)
  refine Takes.bind (m := 0) (Again.run hvalue hs hids rfl (by simp; omega)) ?_ rfl
  exact Takes.terminate rfl (State.open_after _ _ hphrase.ends) Takes.done

theorem reparses_ifOnly {inLoop : Bool} {test : Expr} {yes : Stmt}
    (htest : Reparses ρ .expression test) (hyes : Reparses ρ (.statement inLoop false) yes) :
    Reparses ρ (.statement inLoop false) (.ifElse test yes none) := by
  intro fuel s rest hs hids hfollow hfuel
  simp only [Stmt.render, Stmt.ids, List.length_cons, List.length_append,
    renumbers_append] at hfuel hids ⊢
  unfold statement
  refine Takes.peek (Takes.take (Takes.expect rfl ?_))
  refine Takes.bind (Again.run htest hs hids.1 rfl (by simp; omega)) ?_ rfl
  refine Takes.expect rfl ?_
  refine Takes.finish (Takes.bind_last (Again.run hyes hs hids.2 hfollow (by omega))) ?_
  exact Takes.decline (hfollow.2 rfl) Takes.done

theorem reparses_ifElse {inLoop closed : Bool} {test : Expr} {yes no : Stmt}
    (htest : Reparses ρ .expression test) (hyes : Reparses ρ (.statement inLoop true) yes)
    (hno : Reparses ρ (.statement inLoop closed) no) :
    Reparses ρ (.statement inLoop closed) (.ifElse test yes (some no)) := by
  intro fuel s rest hs hids hfollow hfuel
  simp only [Stmt.render, Stmt.ids, List.length_cons, List.length_append,
    renumbers_append] at hfuel hids ⊢
  unfold statement
  refine Takes.peek (Takes.take (Takes.expect rfl ?_))
  refine Takes.bind (Again.run htest hs hids.1 rfl (by simp; omega)) ?_ rfl
  refine Takes.expect rfl ?_
  refine Takes.bind (Again.run hyes hs hids.2.1 ⟨hfollow.1, by simp⟩ (by simp; omega)) ?_ rfl
  refine Takes.accept rfl ?_
  exact Takes.bind_last (Again.run hno hs hids.2.2 hfollow (by omega))

theorem reparses_block {inLoop closed : Bool} {body : List Stmt}
    (hbody : Reparses ρ (.declarations inLoop) body) :
    Reparses ρ (.statement inLoop closed) (.block body) := by
  intro fuel s rest hs hids hfollow hfuel
  simp only [Stmt.render, Stmt.ids, List.length_cons] at hfuel ⊢
  unfold statement
  refine Takes.peek (Takes.take ?_)
  exact Takes.bind_last ((again_block hbody).run hs hids hfollow.1 (by omega))

theorem reparses_whileLoop {inLoop closed : Bool} {test : Expr} {body : Stmt}
    (htest : Reparses ρ .expression test) (hbody : Reparses ρ (.statement true closed) body) :
    Reparses ρ (.statement inLoop closed) (.loop test body none) := by
  intro fuel s rest hs hids hfollow hfuel
  simp only [Stmt.render, Stmt.ids, List.length_cons, List.length_append,
    renumbers_append] at hfuel hids ⊢
  unfold statement
  refine Takes.peek (Takes.take (Takes.expect rfl ?_))
  refine Takes.bind (Again.run htest hs hids.1 rfl (by simp; omega)) ?_ rfl
  refine Takes.expect rfl (Takes.bind_last (Takes.withLoops ?_))
  exact Again.run hbody hs hids.2 ⟨fun _ => Nat.succ_ne_zero _, hfollow.2⟩ (by omega)

theorem again_optionalExpression {e : Expr} {closing : Kind} (he : Reparses ρ .expression e)
    (hstarts : Starts Kind.startsExpression e.render) (hclosing : closing.startsExpression = false) :
    Again ρ (optionalExpression · closing) 17 e.render e.ids (some (e.rename ρ))
      fun _ rest => grip rest = 0 := by
  intro fuel s rest hs hids hfollow hfuel
  simp only [optionalExpression]
  refine Takes.check ?_
  rw [begins_eq_false hstarts hclosing]
  exact Takes.map (Again.run he hs hids hfollow (by omega))

/-- A loop that keeps a step is read back as a counted loop without a start. -/
theorem reparses_stepLoop {inLoop closed : Bool} {test step : Expr} {body : Stmt}
    (htest : Reparses ρ .expression test) (hteststarts : Starts Kind.startsExpression test.render)
    (hstep : Reparses ρ .expression step) (hstepstarts : Starts Kind.startsExpression step.render)
    (hbody : Reparses ρ (.statement true closed) body) :
    Reparses ρ (.statement inLoop closed)
      (.loop test (.block [body, .expression step]) (some (.expression step))) := by
  intro fuel s rest hs hids hfollow hfuel
  simp only [Stmt.render, Stmt.ids, List.length_cons, List.length_append,
    renumbers_append] at hfuel hids ⊢
  obtain ⟨fuel, rfl⟩ : ∃ k, fuel = k + 2 := ⟨fuel - 2, by omega⟩
  have htest := again_optionalExpression htest hteststarts (show Kind.semicolon.startsExpression = false from rfl)
  have hstep := again_optionalExpression hstep hstepstarts
    (show Kind.rightParen.startsExpression = false from rfl)
  rw [statement]
  refine Takes.peek (Takes.take ?_)
  rw [countedLoop]
  refine Takes.expect rfl ?_
  rw [loopStart]
  refine Takes.bind_token (a := none) rfl ?_
  refine Takes.bind (htest.run hs hids.1 rfl (by simp; omega)) (Takes.expect rfl ?_) rfl
  refine Takes.bind (hstep.run hs hids.2.1 rfl (by simp; omega)) (Takes.expect rfl ?_) rfl
  refine Takes.bind_last (Takes.withLoops ?_)
  exact Again.run hbody hs hids.2.2 ⟨fun _ => Nat.succ_ne_zero _, hfollow.2⟩ (by omega)

theorem takes_loopExit {keyword : Token} {cause : Cause} {build : Token → Stmt} {s : State}
    (h : s.loops ≠ 0) (rest : List Token) :
    Takes (loopExit keyword cause build) s [.plain .semicolon ";"] rest (pure (build keyword)) 0 := by
  unfold loopExit
  refine Takes.get ?_
  have hloops : ¬(s.before ([.plain .semicolon ";"] ++ rest)).loops = 0 := h
  simp only [if_neg hloops]
  exact Takes.expect rfl Takes.done

theorem reparses_exitLoop {closed : Bool} {keyword : Token} (hkeyword : keyword.kind = .breakKw) :
    Reparses ρ (.statement true closed) (.exitLoop keyword) := by
  intro fuel s rest hs hids hfollow hfuel
  unfold statement
  refine Takes.peek ?_
  simp only [hkeyword]
  have hloops : (s.after [keyword] 0).loops ≠ 0 := hfollow.1 rfl
  exact Takes.take (takes_loopExit hloops rest)

theorem reparses_nextIteration {closed : Bool} {keyword : Token}
    (hkeyword : keyword.kind = .continueKw) :
    Reparses ρ (.statement true closed) (.nextIteration keyword) := by
  intro fuel s rest hs hids hfollow hfuel
  unfold statement
  refine Takes.peek ?_
  simp only [hkeyword]
  have hloops : (s.after [keyword] 0).loops ≠ 0 := hfollow.1 rfl
  exact Takes.take (takes_loopExit hloops rest)

theorem reparses_result {inLoop closed : Bool} {keyword : Token} (hkeyword : keyword.kind = .returnKw) :
    Reparses ρ (.statement inLoop closed) (.result keyword none) := by
  intro fuel s rest hs hids hfollow hfuel
  unfold statement
  refine Takes.peek ?_
  simp only [hkeyword]
  refine Takes.take (Takes.check ?_)
  have hopen : (s.after [keyword] 0).Open := State.open_after _ _ (.single (by simp [hkeyword]))
  exact Takes.terminate rfl hopen Takes.done

theorem reparses_resultValue {inLoop closed : Bool} {keyword : Token} {value : Expr}
    (hkeyword : keyword.kind = .returnKw) (hvalue : Reparses ρ .expression value)
    (hphrase : Phrase value.render) :
    Reparses ρ (.statement inLoop closed) (.result keyword (some value)) := by
  intro fuel s rest hs hids hfollow hfuel
  simp only [Stmt.render, Stmt.ids, List.length_cons, List.length_append, List.length_nil] at hfuel ⊢
  unfold statement
  refine Takes.peek ?_
  simp only [hkeyword]
  refine Takes.take (Takes.check ?_)
  rw [List.append_assoc, begins_eq_false hphrase.starts rfl]
  refine Takes.bind (m := 0) (Again.run hvalue hs hids rfl (by simp; omega)) ?_ rfl
  exact Takes.terminate rfl (State.open_after _ _ hphrase.ends) Takes.done

/-! ### Declarations -/

theorem again_declaration {d : Stmt} {Follow : State → List Token → Prop}
    (hd : Again ρ statement 18 d.render d.ids (d.rename ρ) Follow)
    (hstarts : Starts Kind.opensStatement d.render) :
    Again ρ declaration 19 d.render d.ids (d.rename ρ) Follow := by
  intro fuel s rest hs hids hfollow hfuel
  have hrun := hd.run hs hids hfollow
    (show 32 * (d.render.length + rest.length) + 18 < fuel by omega)
  obtain ⟨t, us, htokens, ht⟩ := hstarts
  rw [htokens] at hrun ⊢
  unfold declaration
  refine Takes.peek ?_
  split
  case h_4 => exact hrun
  all_goals
    next hk =>
      rw [hk] at ht
      cases ht

theorem reparses_statementDeclaration {inLoop closed : Bool} {d : Stmt}
    (hd : Reparses ρ (.statement inLoop closed) d) (hstarts : Starts Kind.opensStatement d.render) :
    Reparses ρ (.declaration inLoop) d :=
  Again.mono (again_declaration hd hstarts) fun _ _ h => ⟨h.1, fun _ => h.2⟩

theorem reparses_variableOnly {name : Token} (hname : name.kind = .identifier) :
    Reparses ρ .variableRest (.var name none) := by
  intro fuel s rest hs hids _ hfuel
  simp only [Stmt.render, List.length_cons, List.length_nil] at hfuel
  obtain ⟨fuel, rfl⟩ : ∃ k, fuel = k + 1 := ⟨fuel - 1, by omega⟩
  unfold declaration variableRest
  refine Takes.peek (Takes.take (Takes.expect hname ?_))
  refine Takes.decline rfl (Takes.terminate rfl ?_ Takes.done)
  exact State.open_after _ _ (.single (by simp [hname]))

theorem reparses_variableValue {name : Token} {value : Expr} (hname : name.kind = .identifier)
    (hvalue : Reparses ρ .expression value) (hphrase : Phrase value.render) :
    Reparses ρ .variableRest (.var name (some value)) := by
  intro fuel s rest hs hids _ hfuel
  simp only [Stmt.render, Stmt.ids, List.length_cons, List.length_append, List.length_nil] at hfuel ⊢
  obtain ⟨fuel, rfl⟩ : ∃ k, fuel = k + 1 := ⟨fuel - 1, by omega⟩
  unfold declaration variableRest
  refine Takes.peek (Takes.take (Takes.expect hname (Takes.accept rfl ?_)))
  refine Takes.bind (m := 0) (Again.run hvalue hs hids rfl (by simp; omega)) ?_ rfl
  exact Takes.terminate rfl (State.open_after _ _ hphrase.ends) Takes.done

theorem reparses_function {name : Token} {ps params : List Token} {body : List Stmt}
    (hparams : Parameters ps params) (hbody : Reparses ρ (.declarations false) body) :
    Reparses ρ (.function (some name)) ⟨some name, params, body⟩ := by
  rintro _ ⟨⟩ fuel s rest hs hids _ hfuel
  have hlength := length_le_renderNames params
  simp only [FunctionDecl.render, List.length_cons, List.length_append, List.length_nil] at hfuel ⊢
  unfold functionRest
  refine Takes.expect rfl ?_
  refine Takes.bind (takes_parameters hparams rfl (by omega)) ?_ (Nat.zero_add _).symm
  refine Takes.expect rfl (Takes.expect rfl (Takes.bind_last (Takes.withLoops ?_)))
  exact (again_block hbody).run hs hids (by simp) (by simp; omega)

theorem reparses_functionDeclaration {inLoop : Bool} {name : Token} {decl : FunctionDecl}
    (hname : name.kind = .identifier) (hnamed : decl.name? = some name)
    (hdecl : Reparses ρ (.function (some name)) decl) :
    Reparses ρ (.declaration inLoop) (.function decl) := by
  intro fuel s rest hs hids _ hfuel
  simp only [Stmt.render, Stmt.ids, hnamed, Option.toList, List.cons_append, List.nil_append,
    List.length_cons] at hfuel ⊢
  unfold declaration
  refine Takes.peek (Takes.take (Takes.expect hname ?_))
  have hrest := hdecl name rfl
  exact Takes.bind_last (hrest.run hs hids trivial (by omega))

theorem reparses_noMethods : Reparses ρ .methods [] := by
  intro fuel s rest hs hids hfollow hfuel
  cases rest with
  | nil => cases hfollow
  | cons t us =>
    unfold methodList
    refine Takes.atEnd (Takes.check ?_)
    rw [show begins (renderFunctions [] ++ t :: us) .rightBrace = true from hfollow]
    exact Takes.done

theorem reparses_moreMethods {name : Token} {method : FunctionDecl} {others : List FunctionDecl}
    (hname : name.kind = .identifier) (hnamed : method.name? = some name)
    (hmethod : Reparses ρ (.function (some name)) method) (hothers : Reparses ρ .methods others) :
    Reparses ρ .methods (method :: others) := by
  intro fuel s rest hs hids hfollow hfuel
  simp only [renderFunctions, idsOfFunctions, hnamed, Option.toList, List.cons_append,
    List.nil_append, List.length_cons, List.length_append, renumbers_append] at hfuel hids ⊢
  unfold methodList
  refine Takes.atEnd (Takes.check ?_)
  rw [List.cons_append, begins_cons, hname]
  refine Takes.decline (by simp [begins_cons, hname]) (Takes.expect hname ?_)
  have hrest := hmethod name rfl
  refine Takes.bind (hrest.run hs hids.1 trivial (by simp; omega)) ?_ rfl
  exact Takes.bind_last (Again.run hothers hs hids.2 hfollow (by omega))

theorem reparses_classDeclaration {inLoop : Bool} {name : Token} {methods : List FunctionDecl}
    (hname : name.kind = .identifier) (hmethods : Reparses ρ .methods methods) :
    Reparses ρ (.declaration inLoop) (.classDecl name methods) := by
  intro fuel s rest hs hids _ hfuel
  simp only [Stmt.render, Stmt.ids, List.length_cons, List.length_append, List.length_nil] at hfuel ⊢
  unfold declaration
  refine Takes.peek (Takes.take (Takes.expect hname (Takes.expect rfl ?_)))
  refine Takes.bind (m := 0) (Again.run hmethods hs hids rfl (by simp; omega)) ?_ rfl
  exact Takes.expect rfl Takes.done

theorem reparses_noDeclarations {inLoop : Bool} : Reparses ρ (.declarations inLoop) [] := by
  intro inBlock fuel s rest hs hids hfollow hfuel
  simp only [declarations]
  refine Takes.atEnd ?_
  obtain ⟨-, rfl | ⟨rfl, hbrace⟩⟩ := hfollow
  · exact Takes.done
  · cases rest with
    | nil => exact Takes.done
    | cons t us =>
      refine Takes.check ?_
      rw [show begins (renderStmts [] ++ t :: us) .rightBrace = true from hbrace]
      exact Takes.done

theorem reparses_moreDeclarations {inLoop : Bool} {first : Stmt} {others : List Stmt}
    (hfirst : Reparses ρ (.declaration inLoop) first)
    (hstarts : Starts Kind.opensDeclaration first.render)
    (hothers : Reparses ρ (.declarations inLoop) others)
    (hbehind : others = [] ∨ Starts Kind.opensDeclaration (renderStmts others)) :
    Reparses ρ (.declarations inLoop) (first :: others) := by
  intro inBlock fuel s rest hs hids hfollow hfuel
  simp only [renderStmts, idsOfStmts, List.length_append, renumbers_append] at hfuel hids ⊢
  have hpos : 0 < first.render.length := List.length_pos_iff.mpr hstarts.ne_nil
  have helse : begins (renderStmts others ++ rest) .elseKw = false := by
    rcases hbehind with rfl | hbehind
    · obtain ⟨-, rfl | ⟨-, hbrace⟩⟩ := hfollow
      · rfl
      · cases rest with
        | nil => rfl
        | cons t us =>
          simp only [begins_cons, decide_eq_true_eq] at hbrace
          simp [renderStmts, begins_cons, hbrace]
    · exact begins_eq_false hbehind rfl rest
  have hempty : (first.render ++ renderStmts others ++ rest).isEmpty = false := by
    obtain ⟨t, us, htokens, -⟩ := hstarts
    simp [htokens]
  have hbrace : begins (first.render ++ renderStmts others ++ rest) .rightBrace = false := by
    rw [List.append_assoc]
    exact begins_eq_false hstarts rfl _
  simp only [declarations]
  refine Takes.atEnd ?_
  rw [hempty]
  refine Takes.check ?_
  rw [hbrace, Bool.and_false]
  refine Takes.bind (Takes.recover (Again.run hfirst hs hids.1 ⟨hfollow.1, helse⟩ ?_)) ?_ rfl
  · simp
    omega
  · exact Takes.bind_last ((hothers inBlock).run hs hids.2 hfollow (by omega))

/-! ### Whole programs -/

theorem reparses_literal (value : Literal) : Reparses ρ .expression (.literal value) := by
  have hcall := reparses_noSuffix (reparses_constant (ρ := ρ) value) (.cons (startsValue_token value))
  have hconditional := reparses_conditional_of_call hcall (List.cons_ne_nil _ _)
  exact reparses_assignmentExpression (reparses_conditionalAssignment hconditional)
    (plainPhrase_literal value)

/-- A counted loop without a start; a missing test is written out. -/
theorem reparses_loop {inLoop closed : Bool} {test step : Option Expr} {body : Stmt}
    (htest : Reparses ρ .optionalExpression test ∧ Spelled .optionalExpression test)
    (hstep : Reparses ρ .optionalExpression step ∧ Spelled .optionalExpression step)
    (hbody : Reparses ρ (.statement true closed) body) :
    Reparses ρ (.statement inLoop closed) (.countedLoop none test step body) := by
  have htest' : Reparses ρ .expression (test.getD (.literal (.boolean true))) ∧
      Starts Kind.startsExpression (test.getD (.literal (.boolean true))).render := by
    cases test with
    | none => exact ⟨reparses_literal _, .cons rfl⟩
    | some test => exact ⟨htest.1, Phrase.starts htest.2⟩
  cases step with
  | none => exact reparses_whileLoop htest'.1 hbody
  | some step => exact reparses_stepLoop htest'.1 htest'.2 hstep.1 (Phrase.starts hstep.2) hbody

/-- A counted loop is read back part by part; its start goes into the block around it. -/
theorem reparses_countedLoop {inLoop closed : Bool} {start : Option Stmt} {test step : Option Expr}
    {body : Stmt} (hstart : Reparses ρ .loopStart start ∧ Spelled .loopStart start)
    (htest : Reparses ρ .optionalExpression test ∧ Spelled .optionalExpression test)
    (hstep : Reparses ρ .optionalExpression step ∧ Spelled .optionalExpression step)
    (hbody : Reparses ρ (.statement true closed) body ∧ Spelled (.statement true closed) body) :
    Reparses ρ (.statement inLoop closed) (.countedLoop start test step body) := by
  have hloop : Reparses ρ (.statement inLoop closed) (.countedLoop none test step body) :=
    reparses_loop htest hstep hbody.1
  cases start with
  | none => exact hloop
  | some start =>
    have hspelled : Spelled (.statement inLoop closed) (.countedLoop none test step body) :=
      spelled_loop htest.2 hstep.2 hbody.2
    have hfirst : Reparses ρ (.declaration inLoop) start := Again.mono hstart.1 fun _ _ _ => trivial
    have hsecond := reparses_moreDeclarations (reparses_statementDeclaration hloop hspelled.1)
      hspelled.1.opensDeclaration reparses_noDeclarations (.inl rfl)
    exact reparses_block (reparses_moreDeclarations hfirst hstart.2.1 hsecond
      (.inr hspelled.1.opensDeclaration.append))

/-- **The tokens of every derived tree are read back.** -/
theorem reparses_of_derives {x : Symbol} {ts : List Token} {t : x.Tree} (h : Derives x ts t) :
    Reparses ρ x t := by
  induction h with
  | noDeclarations => exact reparses_noDeclarations
  | moreDeclarations hfirst hothers ihFirst ihOthers =>
    exact reparses_moreDeclarations ihFirst hfirst.spelled.1 ihOthers hothers.spelled.1
  | classDeclaration _ hname _ _ _ ih => exact reparses_classDeclaration hname ih
  | functionDeclaration _ hname hdecl ih =>
    cases hdecl
    exact reparses_functionDeclaration hname rfl ih
  | variableDeclaration _ _ ih => exact Again.mono ih fun _ _ _ => trivial
  | statementDeclaration hs ih => exact reparses_statementDeclaration ih hs.spelled.1
  | noMethods => exact reparses_noMethods
  | moreMethods _ hname hmethod _ ihMethod ihOthers =>
    cases hmethod
    exact reparses_moreMethods hname rfl ihMethod ihOthers
  | @function name? _ _ _ _ _ _ _ _ _ hparams _ _ _ _ ih =>
    cases name? with
    | none =>
      rintro _ ⟨⟩
    | some name => exact reparses_function hparams ih
  | variableOnly hname _ => exact reparses_variableOnly hname
  | variableValue hname _ hvalue _ ih => exact reparses_variableValue hname ih hvalue.spelled
  | print _ hvalue _ ih => exact reparses_print ih hvalue.spelled
  | ifOnly _ _ _ _ _ ihTest ihYes => exact reparses_ifOnly ihTest ihYes
  | ifElse _ _ _ _ _ _ _ ihTest ihYes ihNo => exact reparses_ifElse ihTest ihYes ihNo
  | block _ _ _ ih => exact reparses_block ih
  | whileLoop _ _ _ _ _ ihTest ihBody => exact reparses_whileLoop ihTest ihBody
  | countedLoop _ _ hstart htest _ hstep _ hbody ihStart ihTest ihStep ihBody =>
    exact reparses_countedLoop ⟨ihStart, hstart.spelled⟩ ⟨ihTest, htest.spelled⟩
      ⟨ihStep, hstep.spelled⟩ ⟨ihBody, hbody.spelled⟩
  | exitLoop hkeyword _ => exact reparses_exitLoop hkeyword
  | nextIteration hkeyword _ => exact reparses_nextIteration hkeyword
  | @result _ _ _ _ _ value? hkeyword hvalue _ ih =>
    cases value? with
    | none => exact reparses_result hkeyword
    | some value => exact reparses_resultValue hkeyword ih hvalue.spelled
  | bareExpression hs ih => exact reparses_bareExpression ih hs.spelled.1
  | expressionStatement hvalue _ ih => exact reparses_expressionStatement ih hvalue.spelled
  | noStart => trivial
  | startVariable _ _ ih => exact ih
  | startExpression hs ih =>
    have hstatement : Reparses ρ (.statement false true) _ := reparses_bareExpression ih hs.spelled.1
    exact Again.mono (again_declaration hstatement hs.spelled.1.opensStatement)
      fun _ _ _ => ⟨by simp, by simp⟩
  | noExpression => trivial
  | someExpression _ ih => exact ih
  | step hname _ _ => exact reparses_assignmentExpression (reparses_step hname) (plainPhrase_step hname)
  | lambdaBlock _ hparams _ _ _ hbody _ ih =>
    exact reparses_lambdaBlock hparams hbody.renderLambdaBody ih
  | lambdaValue _ hparams _ harrow hvalue ih =>
    exact reparses_lambdaValue hparams harrow (Phrase.starts hvalue.spelled) ih
  | assignmentExpression he ih => exact reparses_assignmentExpression ih he.spelled
  | assignName hname _ _ ih => exact reparses_assignName hname ih
  | assignProperty hobject _ hname _ _ ihObject ihValue =>
    refine reparses_assigned rfl (reparses_conditional_of_call (reparses_property hname ihObject) ?_)
      ihValue
    simp
  | assignEntry _ hbracket _ _ _ _ ihBase ihKey ihValue =>
    refine reparses_assigned rfl
      (reparses_conditional_of_call (reparses_entry hbracket ihBase ihKey) ?_) ihValue
    simp
  | conditionalAssignment _ ih => exact reparses_conditionalAssignment ih
  | choice _ _ _ _ _ ihTest ihYes ihNo => exact reparses_choice ihTest ihYes ihNo
  | noChoice _ ih => exact reparses_noChoice ih
  | join _ hoperator _ ihLeft ihRight => exact reparses_join hoperator ihLeft ihRight
  | firstOperand he ih =>
    exact reparses_firstOperand ih (PlainPhrase.toPhrase he.spelled).starts.ne_nil
  | tighterOperand htighter _ ih => exact reparses_tighterOperand htighter ih
  | unaryOperand hlast _ ih => exact reparses_unaryOperand hlast ih
  | unary hoperator _ ih => exact reparses_unary hoperator ih
  | plain _ ih => exact reparses_plain ih
  | call _ _ _ hlimit hclosing ihCallee ihArguments =>
    exact reparses_call hclosing hlimit ihCallee ihArguments
  | property _ _ hname ih => exact reparses_property hname ih
  | entry _ hbracket _ _ ihBase ihKey => exact reparses_entry hbracket ihBase ihKey
  | noSuffix he ih => exact reparses_noSuffix ih he.spelled.2
  | constant _ => exact reparses_constant _
  | receiver hkeyword => exact reparses_receiver hkeyword
  | name hname => exact reparses_name hname
  | group _ _ _ ih => exact reparses_group ih
  | array hbracket _ _ ih => exact reparses_array hbracket ih
  | noExpressions => exact reparses_noExpressions
  | someExpressions hes ih => exact reparses_someExpressions ih hes.spelled.1
  | lastExpression _ ih => exact reparses_lastExpression ih
  | moreExpressions _ _ hes ihFirst ihOthers =>
    exact reparses_moreExpressions ihFirst ihOthers hes.expressionList_ne_nil

/-- The new number of an occurrence: its place among all occurrences, counted from `k`. -/
def renumber (ids : List Nat) (k i : Nat) : Nat := k + ids.idxOf i

theorem renumbers_renumber {ids : List Nat} (h : ids.Nodup) (k : Nat) :
    Renumbers (renumber ids k) k ids := by
  refine List.ext_getElem (by simp) fun i hi _ => ?_
  simp only [List.length_map] at hi
  simp [renumber, List.Nodup.idxOf_getElem h i hi]

theorem renumber_inj {ids : List Nat} {k : Nat} :
    ∀ i ∈ ids, ∀ j ∈ ids, renumber ids k i = renumber ids k j → i = j := by
  intro i hi j hj heq
  have hidx : ids.idxOf i = ids.idxOf j := Nat.add_left_cancel heq
  have hget : ∀ i (hi : i ∈ ids), ids.get ⟨ids.idxOf i, List.idxOf_lt_length_of_mem hi⟩ = i :=
    fun i hi => List.getElem_idxOf _
  calc i = ids.get ⟨ids.idxOf i, List.idxOf_lt_length_of_mem hi⟩ := (hget i hi).symm
    _ = ids.get ⟨ids.idxOf j, List.idxOf_lt_length_of_mem hj⟩ := by simp only [hidx]
    _ = j := hget j hj

/-- Before the first token of a text without an end marker inside. -/
theorem ofTokens_append {ts : List Token} (hts : Inside ts) {ending : Token}
    (hending : ending.kind = .endOfInput) (k : Nat) :
    State.ofTokens (ts ++ [ending]) k = State.before ⟨[], ending, none, 0, k, #[]⟩ ts := by
  have hrest : (ts ++ [ending]).takeWhile (·.kind ≠ .endOfInput) = ts := by
    rw [List.takeWhile_append_of_pos fun t ht => by simpa using hts t ht]
    simp [hending]
  have hnone : ts.find? (·.kind = .endOfInput) = none := by
    rw [List.find?_eq_none]
    intro t ht
    simpa using hts t ht
  have hfind : (ts ++ [ending]).find? (·.kind = .endOfInput) = some ending := by
    simp [List.find?_append, hnone, hending]
  simp only [State.ofTokens, State.before, hrest, hfind, Option.getD_some]

/-- **Round trip.** The tokens of an accepted program are accepted and spell the same program, but
for the numbers of the occurrences, whatever number they start from. -/
theorem parseProgram_render {tokens : List Token} {firstId : Nat} {program : List Stmt}
    (h : (parseProgram tokens firstId).tree? = some program) {ending : Token}
    (hending : ending.kind = .endOfInput) (k : Nat) :
    ∃ ρ : Nat → Nat,
      (∀ i ∈ idsOfStmts program, ∀ j ∈ idsOfStmts program, ρ i = ρ j → i = j) ∧
      (parseProgram (renderStmts program ++ [ending]) k).tree? = some (renameStmts ρ program) := by
  obtain ⟨hderives, hnumbered⟩ := parseProgram_builds h
  refine ⟨renumber (idsOfStmts program) k, renumber_inj, ?_⟩
  have hrun := reparses_of_derives hderives false (32 * ((renderStmts program).length + 1) + 31)
    ⟨[], ending, none, 0, k, #[]⟩ [] hending (renumbers_renumber hnumbered.nodup k)
    ⟨by simp, .inl rfl⟩ (by simp; omega)
  unfold Takes at hrun
  rw [List.append_nil, ← ofTokens_append hderives.spelled.2 hending] at hrun
  have hfuel : fuelFor (renderStmts program ++ [ending]) =
      32 * ((renderStmts program).length + 1) + 31 + 1 := by
    simp only [fuelFor, List.length_append, List.length_singleton]
    omega
  simp only [parseProgram, runRule, hfuel, hrun]
  rfl

theorem nestedChoice_render : ∃ program, (parseProgram nestedChoice 0).tree? = some program ∧
    ∃ ρ : Nat → Nat,
      (∀ i ∈ idsOfStmts program, ∀ j ∈ idsOfStmts program, ρ i = ρ j → i = j) ∧
      (parseProgram (renderStmts program ++ [⟨.endOfInput, "", 1⟩]) 40).tree? =
        some (renameStmts ρ program) := by
  obtain ⟨program, h⟩ := Option.isSome_iff_exists.mp isSome_parseProgram_nestedChoice
  exact ⟨program, h, parseProgram_render h rfl 40⟩

end Parser

end Roteiro
