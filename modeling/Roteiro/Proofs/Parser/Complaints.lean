import Roteiro.Proofs.Parser.Seam

/-!
# What a run complains about

The complaints of a run are those that are noted when it ends and the fault at which it stopped, if
it did. Nothing takes a complaint back: whatever is run behind a rule, the complaints of the rule
come first. So the first thing to complain about in a program is known as soon as it is met.

`Leading rule` says that a rule only moves on, from wherever it starts. It is a class, so that what
follows a rule is found to be leading from its parts.

* `complaints_bind`: the complaints of the first of two rules come first.
* `reports_runRule`: the complaints of a run are what is reported.
-/

namespace Roteiro

namespace Parser

/-- What there is to complain about when a run has ended. -/
def complaints {α : Type} : EStateM.Result Stop State α → List Report
  | .ok _ s => s.reports.toList
  | .error (.fault r) s => (s.report r).reports.toList
  | .error .outOfFuel s => s.reports.toList

/-- A rule only moves on. -/
class Leading {α : Type} (rule : Rule α) : Prop where
  leads : ∀ s : State, s.Proper → s.Leads (stateOf (rule s))

section Leading

variable {α β : Type} {rule : Rule α} {next : α → Rule β} {s s₁ : State}

theorem leads_of (rule : Rule α) [h : Leading rule] (s : State) (hs : s.Proper) :
    s.Leads (stateOf (rule s)) := h.leads s hs

theorem prefix_complaints (result : EStateM.Result Stop State α) :
    (stateOf result).reports.toList <+: complaints result := by
  obtain ⟨_, _⟩ | ⟨_ | _, _⟩ := result
  · exact List.prefix_refl _
  · simp [stateOf, complaints, State.report]
  · exact List.prefix_refl _

/-- What was there to complain about before comes first. -/
theorem Leading.kept [Leading rule] (hs : s.Proper) :
    s.reports.toList <+: complaints (rule s) :=
  (leads_of rule s hs).kept.trans (prefix_complaints _)

theorem Leading.proper [Leading rule] (hs : s.Proper) {a : α} (hrun : rule s = .ok a s₁) :
    s₁.Proper := by
  have hleads := leads_of rule s hs
  rw [hrun] at hleads
  exact hleads.proper hs

/-- Where nothing is complained about in the end, nothing was before. -/
theorem Leading.quiet [Leading rule] (hs : s.Proper) {a : α} (hrun : rule s = .ok a s₁)
    (hquiet : s₁.reports = #[]) : s.reports = #[] := by
  have hkept := (leads_of rule s hs).kept
  rw [hrun] at hkept
  simpa [stateOf, hquiet] using hkept

theorem Leading.of_meets {Post : State → List Token → α → State → Prop}
    (h : ∀ s, s.Proper → Meets rule s (Post s)) : Leading rule := by
  refine ⟨fun s hs => ?_⟩
  have hmeets := h s hs
  unfold Meets at hmeets
  cases hrun : rule s with
  | ok a s₁ =>
    simp only [hrun] at hmeets
    exact hmeets.1
  | error e s₁ =>
    simp only [hrun] at hmeets
    exact hmeets

/-! ### Small rules -/

instance (a : α) : Leading (pure a : Rule α) := ⟨fun s _ => .refl s⟩

theorem Leading.bind (h : Leading rule) (hnext : ∀ a, Leading (next a)) :
    Leading (rule >>= next) := by
  refine ⟨fun s hs => ?_⟩
  have hfirst := leads_of rule s hs
  cases hrun : rule s with
  | error e s₁ =>
    have hbind : (rule >>= next) s = .error e s₁ := by simp only [Bind.bind, EStateM.bind, hrun]
    rw [hrun] at hfirst
    rw [hbind]
    exact hfirst
  | ok a s₁ =>
    have hbind : (rule >>= next) s = next a s₁ := by simp only [Bind.bind, EStateM.bind, hrun]
    rw [hrun] at hfirst
    rw [hbind]
    exact hfirst.trans ((hnext a).leads s₁ (hfirst.proper hs))

instance [Leading rule] [∀ a, Leading (next a)] : Leading (rule >>= next) :=
  .bind inferInstance inferInstance

instance {c : Prop} [Decidable c] {yes no : Rule α} [Leading yes] [Leading no] :
    Leading (if c then yes else no) := by
  split <;> infer_instance

instance (kind : Kind) : Leading (accept kind) := .of_meets fun _ _ => meets_accept kind

instance (among : Kind → Bool) : Leading (acceptToken? among) :=
  .of_meets fun _ _ => meets_acceptToken? among

instance (kind : Kind) (cause : Cause) : Leading (expect kind cause) :=
  .of_meets fun _ _ => meets_expect kind cause

instance (t : Token) (cause : Cause) : Leading (complain t cause) :=
  .of_meets fun _ _ => meets_complain t cause

instance (value? : Option Expr) (cause : Cause) : Leading (terminate value? cause) :=
  .of_meets fun s _ => meets_terminate value? cause s

instance (fuel count : Nat) : Leading (parameterList fuel count) :=
  .of_meets fun s _ => meets_parameterList fuel count s

instance (fuel : Nat) : Leading (parameters fuel) := .of_meets fun s _ => meets_parameters fuel s

instance {loops : Nat → Nat} [Leading rule] : Leading (withLoops loops rule) := by
  refine ⟨fun s hs => ?_⟩
  have hleads := leads_of rule { s with loops := loops s.loops } hs
  unfold withLoops
  generalize rule { s with loops := loops s.loops } = result at hleads ⊢
  cases result <;> exact ⟨hleads.rest, hleads.ending, rfl, hleads.nextId, hleads.kept⟩

instance [Leading rule] : Leading (recover rule) := by
  refine ⟨fun s hs => ?_⟩
  have hleads := leads_of rule s hs
  unfold recover
  generalize rule s = result at hleads ⊢
  obtain ⟨_, _⟩ | ⟨r | _, s₁⟩ := result
  · exact hleads
  · exact (hleads.trans (s₁.leads_report r)).trans (State.leads_synchronize _)
  · exact hleads

/-! ### Rules in a circle -/

section Rules

variable (fuel : Nat)

instance (inBlock : Bool) : Leading (declarations fuel inBlock) :=
  .of_meets ((rulesBuild fuel).declarations inBlock)

instance : Leading (declaration fuel) := .of_meets (rulesBuild fuel).declaration

instance : Leading (methodList fuel) := .of_meets (rulesBuild fuel).methodList

instance (name : Token) : Leading (functionRest fuel name) :=
  .of_meets ((rulesBuild fuel).functionRest name)

instance : Leading (block fuel) := .of_meets (rulesBuild fuel).block

instance : Leading (statement fuel) := .of_meets (rulesBuild fuel).statement

instance : Leading (loopStart fuel) := .of_meets (rulesBuild fuel).loopStart

instance (closing : Kind) : Leading (optionalExpression fuel closing) :=
  .of_meets ((rulesBuild fuel).optionalExpression closing)

instance : Leading (expression fuel) := .of_meets (rulesBuild fuel).expression

instance : Leading (assignment fuel) := .of_meets (rulesBuild fuel).assignment

instance : Leading (conditional fuel) := .of_meets (rulesBuild fuel).conditional

instance (l : Level) : Leading (level fuel l) := .of_meets ((rulesBuild fuel).level l)

instance (l : Level) (left : Expr) : Leading (levelRest fuel l left) :=
  .of_meets ((rulesBuild fuel).levelRest l left)

instance (l : Level) : Leading (operand fuel l) := .of_meets ((rulesBuild fuel).operand l)

instance : Leading (unary fuel) := .of_meets (rulesBuild fuel).unary

instance (value : Expr) : Leading (suffixes fuel value) :=
  .of_meets ((rulesBuild fuel).suffixes value)

instance (closing : Kind) (limited : Bool) : Leading (expressions fuel closing limited) :=
  .of_meets ((rulesBuild fuel).expressions closing limited)

instance (limited : Bool) (count : Nat) : Leading (expressionList fuel limited count) :=
  .of_meets ((rulesBuild fuel).expressionList limited count)

instance : Leading (primary fuel) := .of_meets (rulesBuild fuel).primary

end Rules

/-! ### Complaints -/

/-- **Complaints are never taken back.** -/
theorem complaints_bind [Leading rule] [∀ a, Leading (next a)] (hs : s.Proper) :
    complaints (rule s) <+: complaints ((rule >>= next) s) := by
  cases hrun : rule s with
  | error e s₁ =>
    have hbind : (rule >>= next) s = .error e s₁ := by simp only [Bind.bind, EStateM.bind, hrun]
    rw [hbind]
    cases e <;> exact List.prefix_refl _
  | ok a s₁ =>
    have hbind : (rule >>= next) s = next a s₁ := by simp only [Bind.bind, EStateM.bind, hrun]
    rw [hbind]
    exact Leading.kept (Leading.proper hs hrun)

theorem complaints_map (f : α → β) : complaints ((f <$> rule) s) = complaints (rule s) := by
  simp only [Functor.map, EStateM.map]
  obtain ⟨_, _⟩ | ⟨_ | _, _⟩ := rule s <;> rfl

theorem complaints_withLoops (loops : Nat → Nat) :
    complaints (withLoops loops rule s) = complaints (rule { s with loops := loops s.loops }) := by
  rw [withLoops]
  obtain ⟨_, _⟩ | ⟨_ | _, _⟩ := rule { s with loops := loops s.loops } <;> rfl

/-- A fault that is recovered from is complained about. -/
theorem complaints_recover : complaints (recover rule s) = complaints (rule s) := by
  rw [recover]
  obtain ⟨_, _⟩ | ⟨r | _, s₁⟩ := rule s
  · rfl
  · simp only [complaints]
    unfold State.synchronize
    split <;> rfl
  · rfl

/-- The complaints of a run are what is reported. -/
theorem reports_runRule (rule : Nat → Rule α) (tokens : List Token) (firstId : Nat) :
    (runRule rule tokens firstId).reports =
      complaints (rule (fuelFor tokens) (.ofTokens tokens firstId)) := by
  rw [runRule]
  obtain ⟨_, _⟩ | ⟨_ | _, _⟩ := rule (fuelFor tokens) (.ofTokens tokens firstId) <;> rfl

end Leading

end Parser

end Roteiro
