import Roteiro.Proofs.Parser.Complaints
import Roteiro.Proofs.Parser.Fuel

/-!
# The parser ends

Rules call each other at the same place, faults pass up to whatever declaration is nearest, and the
loops over declarations go on behind a fault. Reading ends all the same, because every declaration
takes at least one token, if only by skipping the one at fault, and no rule goes past the first end
marker.

`s.At tokens i` says that the parser stands in front of token `i`, with no end marker behind it.

* `State.At.leads`: whatever is read, the place only moves forward, and not past an end marker.
* `declaration_moves`: a declaration that is started in front of a token ends behind it.
* `parse_ends`: every list of tokens is read to the end, and there is no tree exactly if there is
  something to complain about.
-/

namespace Roteiro

namespace Parser

/-- The parser stands in front of token `i`, or of the end if there are only `i` tokens. The tokens
that it has passed are no end markers, and it sees those up to the next one. -/
structure State.At (tokens : List Token) (s : State) (i : Nat) : Prop where
  le : i ≤ tokens.length
  passed : ∀ t ∈ tokens.take i, t.kind ≠ .endOfInput
  rest : s.rest = (tokens.drop i).takeWhile (·.kind ≠ .endOfInput)
  proper : s.Proper

theorem at_ofTokens (tokens : List Token) (firstId : Nat) :
    (State.ofTokens tokens firstId).At tokens 0 :=
  ⟨Nat.zero_le _, nofun, rfl, proper_ofTokens tokens firstId⟩

/-- What is left of the front of a list is the front of what is left. -/
theorem drop_takeWhile {α : Type} (p : α → Bool) {l : List α} {k : Nat}
    (hk : k ≤ (l.takeWhile p).length) : (l.takeWhile p).drop k = (l.drop k).takeWhile p := by
  induction l generalizing k with
  | nil => simp
  | cons a l ih =>
    cases k with
    | zero => simp
    | succ k =>
      by_cases ha : p a = true
      · simp only [List.takeWhile_cons_of_pos ha, List.length_cons, Nat.add_le_add_iff_right] at hk
        simpa [List.takeWhile_cons_of_pos ha] using ih hk
      · simp [List.takeWhile_cons_of_neg ha] at hk

section At

variable {tokens : List Token} {s s' : State} {i : Nat}

/-- **Reading only moves forward**, and never past an end marker. -/
theorem State.At.leads (h : s.At tokens i) (hleads : s.Leads s') :
    s'.At tokens (i + (s.rest.length - s'.rest.length)) := by
  have hsuffix := List.suffix_iff_eq_drop.mp hleads.rest
  have hle : s.rest.length - s'.rest.length ≤ s.rest.length := Nat.sub_le _ _
  generalize s.rest.length - s'.rest.length = k at hsuffix hle ⊢
  have hfront : s.rest <+: tokens.drop i := h.rest ▸ List.takeWhile_prefix _
  have hlength := hfront.length_le
  rw [List.length_drop] at hlength
  have hi := h.le
  refine ⟨by omega, fun t ht => ?_, ?_, hleads.proper h.proper⟩
  · rw [List.take_add, List.mem_append] at ht
    rcases ht with ht | ht
    · exact h.passed t ht
    · -- it is one of those that were seen
      obtain ⟨unseen, hunseen⟩ := hfront
      rw [← hunseen, List.take_append_of_le_length hle, h.rest] at ht
      simpa using List.all_eq_true.mp List.all_takeWhile t (List.mem_of_mem_take ht)
  · rw [hsuffix, h.rest, drop_takeWhile _ (h.rest ▸ hle), List.drop_drop]

/-- Where all tokens are read, there are no more, or an end marker is next. -/
theorem State.At.ended (h : s.At tokens i) (hend : s.atEnd = true) :
    ∀ t ∈ tokens[i]?, t.kind = .endOfInput := by
  intro t ht
  have hnone : (tokens.drop i).takeWhile (·.kind ≠ .endOfInput) = [] := by
    rw [← h.rest]
    simpa [State.atEnd] using hend
  have hhead : (tokens.drop i).head? = some t := by rwa [List.head?_drop]
  cases hdrop : tokens.drop i with
  | nil => simp [hdrop] at hhead
  | cons u us =>
    rw [hdrop] at hhead hnone
    cases hhead
    by_cases ht : t.kind = .endOfInput
    · exact ht
    · simp [ht] at hnone

end At

/-! ### Runs that end -/

section Ends

variable {α : Type} {rule rule' : Rule α} {s : State} {Post : α → State → Prop}

/-- A rule that settles comes to a result or to a fault. -/
theorem Settles.cases (h : Settles rule rule' s Post) :
    (∃ a s', rule s = .ok a s' ∧ Post a s') ∨ ∃ r s', rule s = .error (.fault r) s' := by
  have hrests := h.rests
  generalize rule s = result at hrests ⊢
  cases hrests with
  | ok _ _ hpost => exact .inl ⟨_, _, rfl, hpost⟩
  | fault => exact .inr ⟨_, _, rfl⟩

/-- **A declaration takes a token**, if there is one left: either it is read, or it is skipped where
the parser recovers. What is known before of the parser makes no difference, and neither does the
fuel, if it is enough for the tokens left. -/
theorem declaration_moves {tokens : List Token} {i fuel : Nat} (h : s.At tokens i)
    (hend : s.atEnd = false) (hfuel : fuelFor s.rest ≤ fuel) :
    ∃ first? s' j, recover (declaration fuel) s = .ok first? s' ∧ i < j ∧ s'.At tokens j := by
  have hrest : s.rest ≠ [] := by simpa [State.atEnd] using hend
  have hdeclaration : Settles (declaration fuel) (declaration fuel) s (Moves s) := by
    refine (rulesSettle fuel).declaration.run (Nat.le_refl _) (Nat.le_refl _) h.proper ?_
    unfold fuelFor at hfuel
    omega
  have hrecover := settles_recover hdeclaration hrest
  have hleads := leads_of (recover (declaration fuel)) s h.proper
  rcases hrecover.cases with ⟨first?, s', hrun, hmoves⟩ | ⟨r, s', hrun⟩
  · rw [hrun] at hleads
    unfold Moves at hmoves
    exact ⟨first?, s', _, hrun, by omega, h.leads hleads⟩
  · -- a fault has been recovered from
    unfold recover at hrun
    split at hrun <;> cases hrun

/-- Declarations that stand in no block are read up to the end, whatever is wrong with them. -/
theorem declarations_cases (fuel : Nat) (s : State) :
    (∃ ss s', declarations fuel false s = .ok ss s' ∧ s'.atEnd = true) ∨
      ∃ s', declarations fuel false s = .error .outOfFuel s' := by
  induction fuel generalizing s with
  | zero =>
    rw [declarations]
    exact .inr ⟨s, rfl⟩
  | succ fuel ih =>
    rw [declarations_eq]
    by_cases hrest : s.rest = []
    · rw [if_pos hrest]
      exact .inl ⟨[], s, rfl, by simp [State.atEnd, hrest]⟩
    · rw [if_neg hrest]
      have hfirst : (∃ first? s₁, recover (declaration fuel) s = .ok first? s₁) ∨
          ∃ s₁, recover (declaration fuel) s = .error .outOfFuel s₁ := by
        unfold recover
        obtain ⟨first, s₁⟩ | ⟨r | _, s₁⟩ := declaration fuel s
        · exact .inl ⟨_, _, rfl⟩
        · exact .inl ⟨_, _, rfl⟩
        · exact .inr ⟨_, rfl⟩
      rcases hfirst with ⟨first?, s₁, hfirst⟩ | ⟨s₁, hfirst⟩
      · rcases ih s₁ with ⟨others, s₂, hothers, hend⟩ | ⟨s₂, hothers⟩
        · refine .inl ⟨first?.toList ++ others, s₂, ?_, hend⟩
          simp only [Bind.bind, EStateM.bind, hfirst, hothers, Pure.pure, EStateM.pure]
        · refine .inr ⟨s₂, ?_⟩
          simp only [Bind.bind, EStateM.bind, hfirst, hothers]
      · refine .inr ⟨s₁, ?_⟩
        simp only [Bind.bind, EStateM.bind, hfirst]

/-- There is a tree exactly if there is nothing to complain about, unless the fuel runs out. -/
theorem tree_eq_none_iff {rule : Nat → Rule α} {tokens : List Token} {firstId : Nat}
    {Post : α → State → Prop}
    (h : Settles (rule (fuelFor tokens)) (rule (fuelFor tokens)) (.ofTokens tokens firstId) Post) :
    (runRule rule tokens firstId).tree? = none ↔ (runRule rule tokens firstId).reports ≠ [] := by
  unfold runRule
  rcases h.cases with ⟨tree, s, hrun, -⟩ | ⟨r, s, hrun⟩
  · simp [hrun, ← Array.toList_eq_nil_iff]
  · simp [hrun, State.report]

end Ends

/-- **The parser ends on every list of tokens.** Reading a program comes to a result at the first
end marker or behind the last token, and reading an expression comes to a result or to a fault in
front of one of those. Every declaration that is started in front of a token ends behind it, and
not behind an end marker. And there is no tree exactly if there is something to complain about. -/
theorem parse_ends (tokens : List Token) (firstId : Nat) :
    (∃ program s i,
      declarations (fuelFor tokens) false (.ofTokens tokens firstId) = .ok program s ∧
        s.At tokens i ∧ ∀ t ∈ tokens[i]?, t.kind = .endOfInput) ∧
    (∃ s i, s.At tokens i ∧
      ((∃ e, expression (fuelFor tokens) (.ofTokens tokens firstId) = .ok e s) ∨
        ∃ r, expression (fuelFor tokens) (.ofTokens tokens firstId) = .error (.fault r) s)) ∧
    (∀ s i fuel, s.At tokens i → s.atEnd = false → fuelFor s.rest ≤ fuel →
      ∃ first? s' j, recover (declaration fuel) s = .ok first? s' ∧ i < j ∧ s'.At tokens j) ∧
    ((parseProgram tokens firstId).tree? = none ↔ (parseProgram tokens firstId).reports ≠ []) ∧
    ((parseExpression tokens firstId).tree? = none ↔
      (parseExpression tokens firstId).reports ≠ []) := by
  have hstart := at_ofTokens tokens firstId
  have hprogram := declarations_fuel tokens firstId (Nat.le_refl _)
  have hexpression : Settles (expression (fuelFor tokens)) (expression (fuelFor tokens))
      (.ofTokens tokens firstId) (Moves (.ofTokens tokens firstId)) := by
    refine (rulesSettle _).expression.run (Nat.le_refl _) (Nat.le_refl _) hstart.proper ?_
    have hle : (State.ofTokens tokens firstId).rest.length ≤ tokens.length :=
      (List.takeWhile_sublist _).length_le
    unfold fuelFor
    omega
  refine ⟨?_, ?_, fun s i fuel hs hend hfuel => declaration_moves hs hend hfuel,
    tree_eq_none_iff hprogram, tree_eq_none_iff hexpression⟩
  · have hleads := leads_of (declarations (fuelFor tokens) false) _ hstart.proper
    rcases declarations_cases (fuelFor tokens) (.ofTokens tokens firstId) with
      ⟨program, s, hrun, hend⟩ | ⟨s, hrun⟩
    · rw [hrun] at hleads
      have hs := hstart.leads hleads
      exact ⟨program, s, _, hrun, hs, hs.ended hend⟩
    · have hrests := hprogram.rests
      rw [hrun] at hrests
      cases hrests
  · have hleads := leads_of (expression (fuelFor tokens)) _ hstart.proper
    rcases hexpression.cases with ⟨e, s, hrun, -⟩ | ⟨r, s, hrun⟩
    · rw [hrun] at hleads
      exact ⟨s, _, hstart.leads hleads, .inl ⟨e, hrun⟩⟩
    · rw [hrun] at hleads
      exact ⟨s, _, hstart.leads hleads, .inr ⟨r, hrun⟩⟩

/-- `} pare ( x` and, behind an end marker, `;`: nothing in it is a declaration. -/
def strayTokens : List Token :=
  [⟨.rightBrace, "\x7d", 1⟩, ⟨.breakKw, "pare", 1⟩, ⟨.leftParen, "(", 1⟩, ⟨.identifier, "x", 1⟩,
   ⟨.endOfInput, "", 1⟩, ⟨.semicolon, ";", 2⟩]

/-- The brace in front is skipped, and there is no tree. -/
theorem strayTokens_ends :
    ∃ s' j, recover (declaration (fuelFor strayTokens)) (.ofTokens strayTokens 0) = .ok none s' ∧
      0 < j ∧ s'.At strayTokens j ∧ (parseProgram strayTokens 0).tree? = none := by
  obtain ⟨-, -, hmoves, htree, -⟩ := parse_ends strayTokens 0
  obtain ⟨first?, s', j, hrun, hj, hs'⟩ :=
    hmoves (.ofTokens strayTokens 0) 0 (fuelFor strayTokens) (at_ofTokens _ _)
      (by decide) (by decide)
  have hnone : ∀ first? s', recover (declaration (fuelFor strayTokens))
      (.ofTokens strayTokens 0) = .ok first? s' → first? = none := by
    intro first? s' hrun
    cases hrun
    rfl
  obtain rfl := hnone first? s' hrun
  exact ⟨s', j, hrun, hj, hs', htree.mpr (by decide +kernel)⟩

end Parser

end Roteiro
