import Roteiro.Proofs.Parser.Shortening
import Roteiro.Proofs.Tree.Pairs

/-!
# Steps for assignments

Wherever an accepted program has the assignment `i = i + 1` and the grammar asks for an expression,
the step `i++` may be put in its place: the program is accepted still, and the tree is the same but
for lines and numbers. There is one exception. A step takes the semicolon behind it along. The end
of a statement looks whether it is read already; the head of a counted loop does not, and so a step
at the end of its condition leaves nothing to end the condition with.

* `parseProgram_shortened`: what becomes of a program in which an assignment is shortened.
-/

namespace Roteiro

open Grammar

namespace Parser

/-- Behind these tokens the grammar asks for an expression wherever it asks for an assignment: the
initializer of a variable begins there, or the last token, if there is one, is none behind which it
asks for something less. -/
def Asks (before : List Token) : Prop :=
  ∃ outer front, before = outer ++ front ∧ Front front ∧
    ∀ t ∈ outer.getLast?, t.kind.narrows = false

/-- Statements begin behind these, values, arguments, elements, tests, steps, branches and bodies of
lambdas. -/
example : [Kind.leftBrace, .rightBrace, .leftParen, .rightParen, .leftBracket, .semicolon, .comma,
    .question, .arrow, .elseKw, .printKw, .returnKw].all (!·.narrows) = true := by decide

/-! ### The two texts -/

section Texts

variable {before after : List Token} {firstId : Nat}

theorem Front.inside {front : List Token} (h : Front front) : Inside front := by
  cases h with
  | nothing => exact .nil
  | initializer hkeyword hname hequal => simp [hkeyword, hname, hequal]

theorem Counting.inside_long (c : Counting) : Inside c.long := by
  have hoperator : c.operator.kind ≠ .endOfInput := by
    intro hkind
    have hgrip := Level.grip_of_operators c.operator_kind
    rw [hkind] at hgrip
    cases hgrip
  simp [Counting.long, c.target_kind, c.equals_kind, c.name_kind, hoperator, c.one_kind]

theorem Counting.inside_short (c : Counting) : Inside c.short := by
  have hstep : c.step.kind ≠ .endOfInput := by rcases c.step_kind with h | h <;> simp [h]
  simp [Counting.short, c.counted_kind, hstep]

theorem takeWhile_of_inside (h : Inside before) :
    (before ++ after).takeWhile (·.kind ≠ .endOfInput) =
      before ++ after.takeWhile (·.kind ≠ .endOfInput) :=
  List.takeWhile_append_of_pos fun t ht => by simpa using h t ht

theorem find?_of_inside (h : Inside before) :
    (before ++ after).find? (·.kind = .endOfInput) = after.find? (·.kind = .endOfInput) := by
  rw [List.find?_append, List.find?_eq_none.mpr fun t ht => by simpa using h t ht, Option.none_or]

theorem grip_takeWhile (h : grip after = 0) :
    grip (after.takeWhile (·.kind ≠ .endOfInput)) = 0 := by
  cases after with
  | nil => rfl
  | cons t rest =>
    rw [List.takeWhile_cons]
    split
    · exact h
    · rfl

theorem begins_of_takeWhile {kind : Kind}
    (h : begins (after.takeWhile (·.kind ≠ .endOfInput)) kind = true) :
    begins after kind = true := by
  cases after with
  | nil => exact h
  | cons t rest =>
    rw [List.takeWhile_cons] at h
    split at h
    · exact h
    · cases h

/-- The two texts start side by side. -/
theorem side_ofTokens (w : Site) (hbefore : Inside w.before)
    (hafter : w.after = after.takeWhile (·.kind ≠ .endOfInput)) (firstId : Nat) :
    Side w false (.ofTokens (w.before ++ (w.front ++ (w.long ++ after))) firstId)
      (.ofTokens (w.before ++ (w.front ++ (w.short ++ after))) firstId) := by
  have hfront := w.fronts.inside
  have hrest : (w.before ++ (w.front ++ (w.long ++ after))).takeWhile (·.kind ≠ .endOfInput) =
      w.before ++ w.whole := by
    rw [takeWhile_of_inside hbefore, takeWhile_of_inside hfront,
      takeWhile_of_inside w.inside_long, ← hafter, Site.whole]
  have hrest' : (w.before ++ (w.front ++ (w.short ++ after))).takeWhile (·.kind ≠ .endOfInput) =
      w.before ++ w.brief := by
    rw [takeWhile_of_inside hbefore, takeWhile_of_inside hfront,
      takeWhile_of_inside w.inside_short, ← hafter, Site.brief]
  refine ⟨⟨proper_ofTokens _ _, ?_, rfl, rfl, rfl⟩, ?_, rfl⟩
  · simp only [State.ofTokens, find?_of_inside hbefore, find?_of_inside hfront,
      find?_of_inside w.inside_long, find?_of_inside w.inside_short]
    cases after.find? (·.kind = .endOfInput) with
    | none => exact ⟨rfl, rfl⟩
    | some t => exact shapes_refl t
  · cases hcase : w.before with
    | nil =>
      rw [hcase] at hrest hrest'
      exact .here hrest hrest'
    | cons t p =>
      rw [hcase] at hrest hrest'
      exact .ahead hrest hrest' (hcase ▸ List.suffix_refl _)

end Texts

/-! ### Programs -/

/-- Trees that are alike by `shapes` differ in nothing but lines and numbers. -/
theorem coveredBy_shapes (ρ : Renumbering) (hline : ∀ l l', ρ.line l l') :
    (shapes.likeness.numbered ρ.id).CoveredBy ρ where
  token h := ⟨h.1.1, h.1.2, hline _ _⟩
  keyword h := ⟨h.1, h.2, hline _ _⟩
  occurrence h := ⟨h.2, h.1.2.1.1, h.1.2.1.2, hline _ _⟩
  binder h := ⟨h.1.1, h.1.2, hline _ _⟩
  named h := ⟨h.1.1, h.1.2, hline _ _⟩

/-- **An assignment shortened to a step.** In an accepted program an assignment `i = i + 1` stands
where the grammar asks for an expression. With `i++` in its place, the program is accepted, with the
same tree but for lines and numbers; or the assignment ends the condition of a counted loop and a
semicolon follows, and then the program is refused, since that semicolon goes missing. -/
theorem parseProgram_shortened (c : Counting) {before after : List Token} {firstId : Nat}
    {program : List Stmt} (hbefore : Inside before) (hasks : Asks before) (hafter : grip after = 0)
    (h : (parseProgram (before ++ (c.long ++ after)) firstId).tree? = some program) :
    (∃ (program' : List Stmt) (ρ : Renumbering),
      parseProgram (before ++ (c.short ++ after)) firstId =
        ⟨some program', (parseProgram (before ++ (c.long ++ after)) firstId).nextId, []⟩ ∧
      List.Forall₂ (Stmt.Twin ρ) program program') ∨
    (c.EndsCondition before ∧ begins after .semicolon = true ∧
      (parseProgram (before ++ (c.short ++ after)) firstId).tree? = none ∧
      ∃ t, (parseProgram (before ++ (c.short ++ after)) firstId).reports.head? =
        some (.parse t .expectedLoopConditionEnd)) := by
  obtain ⟨outer, front, rfl, hfront, hwide⟩ := hasks
  obtain ⟨houter, -⟩ := inside_append.mp hbefore
  let w : Site := ⟨c, outer, front, after.takeWhile (·.kind ≠ .endOfInput), hfront,
    grip_takeWhile hafter, hwide⟩
  rw [List.append_assoc] at h ⊢
  rw [List.append_assoc]
  generalize hlong : outer ++ (front ++ (c.long ++ after)) = long at h ⊢
  generalize hshort : outer ++ (front ++ (c.short ++ after)) = short
  have hside : Side w false (.ofTokens long firstId) (.ofTokens short firstId) := by
    rw [← hlong, ← hshort]
    exact side_ofTokens w houter rfl firstId
  have hfuel : fuelFor short ≤ fuelFor long := by
    unfold fuelFor
    rw [← hlong, ← hshort]
    simp only [List.length_append, Counting.long, Counting.short, List.length_cons, List.length_nil]
    omega
  obtain ⟨s, hrun, hsize, hnext⟩ := parseProgram_eq_some h
  have hsame := (declarations_fuel short firstId hfuel).same
  rcases (rulesFollow w (fuelFor long)).declarations false hside program s hrun
    (Array.size_eq_zero_iff.mp hsize) with hstop | hmissed | ⟨program', s', hrun', hlike, hend⟩
  · exact hstop.elim
  · rw [hsame] at hmissed
    obtain ⟨hcondition, hsemicolon, t, ht⟩ := hmissed
    have hreports : (parseProgram short firstId).reports.head? =
        some (.parse t .expectedLoopConditionEnd) := by
      rw [parseProgram, reports_runRule, ht]
    refine .inr ⟨hcondition, begins_of_takeWhile hsemicolon, ?_, t, hreports⟩
    rw [Option.eq_none_iff_forall_ne_some]
    intro program' haccepted
    rw [reports_of_tree haccepted] at hreports
    cases hreports
  · rw [hsame] at hrun'
    have hquiet : s'.reports = #[] :=
      hend.reports.trans (Array.size_eq_zero_iff.mp hsize)
    have hparsed := parseProgram_of_declarations hrun' hquiet
    have haccepted : (parseProgram short firstId).tree? = some program' := by rw [hparsed]
    obtain ⟨ρ, htwins⟩ := exists_twins coveredBy_shapes (hlike []) (orderly_of_parsed h)
      (orderly_of_parsed haccepted) (parseProgram_builds h).2.nodup
      (parseProgram_builds haccepted).2.nodup
    exact .inl ⟨program', ρ, by rw [hparsed, hnext, hend.nextId], htwins⟩

/-- `i = i + 1`, and the step `i++` for it. -/
def plainCounting : Counting where
  target := ⟨.identifier, "i", 1⟩
  equals := ⟨.equal, "=", 1⟩
  name := ⟨.identifier, "i", 1⟩
  operator := ⟨.plus, "+", 1⟩
  one := ⟨.number (Decimal.nearest 1 0), "1", 1⟩
  counted := ⟨.identifier, "i", 1⟩
  step := ⟨.plusPlus, "++", 1⟩
  target_kind := rfl
  equals_kind := rfl
  one_kind := rfl
  step_kind := .inl rfl
  name_like := ⟨rfl, rfl⟩
  counted_like := ⟨rfl, rfl⟩
  operator_like := ⟨rfl, rfl⟩

/-- `repita (;`, in front of the condition of a counted loop. -/
def loopHead : List Token :=
  [⟨.forKw, "repita", 1⟩, ⟨.leftParen, "(", 1⟩, ⟨.semicolon, ";", 1⟩]

/-- `) pare;`, behind the step of a counted loop. -/
def loopBody : List Token :=
  [⟨.rightParen, ")", 1⟩, ⟨.breakKw, "pare", 1⟩, ⟨.semicolon, ";", 1⟩, ⟨.endOfInput, "", 1⟩]

/-- In `repita (; i = i + 1; i = i + 1) pare;` the step of the loop may be shortened to `i++`, and
the condition may not. -/
theorem loopHead_shortened :
    (∃ (program program' : List Stmt) (ρ : Renumbering),
      (parseProgram ((loopHead ++ plainCounting.long ++ [⟨.semicolon, ";", 1⟩]) ++
        (plainCounting.long ++ loopBody)) 0).tree? = some program ∧
      (parseProgram ((loopHead ++ plainCounting.long ++ [⟨.semicolon, ";", 1⟩]) ++
        (plainCounting.short ++ loopBody)) 0).tree? = some program' ∧
      List.Forall₂ (Stmt.Twin ρ) program program') ∧
    plainCounting.EndsCondition loopHead ∧
    (parseProgram (loopHead ++ (plainCounting.short ++ ⟨.semicolon, ";", 1⟩ ::
      (plainCounting.long ++ loopBody))) 0).tree? = none ∧
    ∃ t, (parseProgram (loopHead ++ (plainCounting.short ++ ⟨.semicolon, ";", 1⟩ ::
      (plainCounting.long ++ loopBody))) 0).reports.head? =
        some (.parse t .expectedLoopConditionEnd) := by
  have hsome : (parseProgram ((loopHead ++ plainCounting.long ++ [⟨.semicolon, ";", 1⟩]) ++
      (plainCounting.long ++ loopBody)) 0).tree?.isSome = true := by decide +kernel
  have hrefused : (parseProgram (loopHead ++ (plainCounting.short ++ ⟨.semicolon, ";", 1⟩ ::
      (plainCounting.long ++ loopBody))) 0).tree?.isSome = false := by decide +kernel
  obtain ⟨program, h⟩ := Option.isSome_iff_exists.mp hsome
  constructor
  · have hinside : Inside (loopHead ++ plainCounting.long ++ [⟨.semicolon, ";", 1⟩]) := by
      simp [loopHead, plainCounting.inside_long]
    rcases parseProgram_shortened plainCounting hinside
      ⟨_, [], (List.append_nil _).symm, .nothing, by decide⟩ rfl h with
      ⟨program', ρ, hparsed, htwins⟩ | ⟨-, hsemicolon, -⟩
    · exact ⟨program, program', ρ, h, by rw [hparsed], htwins⟩
    · cases hsemicolon
  · have hinside : Inside loopHead := by simp [loopHead]
    have h' : (parseProgram (loopHead ++ (plainCounting.long ++ ⟨.semicolon, ";", 1⟩ ::
        (plainCounting.long ++ loopBody))) 0).tree? = some program := h
    rcases parseProgram_shortened plainCounting hinside
      ⟨_, [], (List.append_nil _).symm, .nothing, by decide⟩ rfl h' with
      ⟨program', ρ, hparsed, -⟩ | ⟨hcondition, -, hnone, hreport⟩
    · rw [hparsed] at hrefused
      cases hrefused
    · exact ⟨hcondition, hnone, hreport⟩

end Parser

end Roteiro
