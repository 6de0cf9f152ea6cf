import Roteiro.Parser.Rules

/-!
# Reasoning about rules of the parser

`Meets rule s Post` is what is shown of every rule. However the rule ends, it has only moved on
(`State.Leads`): the tokens left are a tail of those before, the open loops are as they were,
complaints and numbers have only been added. And if it gives a result without a complaint, the
tokens it took are accounted for: `Post` holds of the tokens read, of the result and of the state
behind them.

A rule that complains, or that recovers from a fault, need not account for its tokens. This is what
keeps recovery out of every statement about accepted programs.

* `Meets.bind`: the tokens of two rules in sequence are the tokens of the first and then those of
  the second.
* `meets_expect`, `meets_accept`, …: what the small rules take.
-/

namespace Roteiro

namespace Parser

/-- The parser has only moved on. -/
structure State.Leads (s s' : State) : Prop where
  rest : s'.rest <:+ s.rest
  ending : s'.ending = s.ending
  loops : s'.loops = s.loops
  nextId : s.nextId ≤ s'.nextId
  kept : s.reports.toList <+: s'.reports.toList

/-- The tokens between two states. -/
structure State.Reads (s : State) (read : List Token) (s' : State) : Prop where
  rest : s.rest = read ++ s'.rest
  last : s'.last = read.getLast?.or s.last

/-- The end marker is one. -/
def State.Proper (s : State) : Prop := s.ending.kind = .endOfInput

namespace State

variable {s s₁ s₂ : State} {read more : List Token}

theorem Leads.refl (s : State) : s.Leads s :=
  ⟨List.suffix_refl _, rfl, rfl, Nat.le_refl _, List.prefix_refl _⟩

theorem Leads.reports (h : s.Leads s₁) : s.reports.size ≤ s₁.reports.size := h.kept.length_le

theorem Leads.trans (h₁ : s.Leads s₁) (h₂ : s₁.Leads s₂) : s.Leads s₂ :=
  ⟨h₂.rest.trans h₁.rest, h₂.ending.trans h₁.ending, h₂.loops.trans h₁.loops,
   Nat.le_trans h₁.nextId h₂.nextId, h₁.kept.trans h₂.kept⟩

theorem Leads.proper (h : s.Leads s₁) (hs : s.Proper) : s₁.Proper := by
  rw [Proper, h.ending]
  exact hs

theorem Reads.refl (s : State) : s.Reads [] s := ⟨rfl, rfl⟩

theorem Reads.trans (h₁ : s.Reads read s₁) (h₂ : s₁.Reads more s₂) :
    s.Reads (read ++ more) s₂ := by
  refine ⟨by rw [h₁.rest, h₂.rest, List.append_assoc], ?_⟩
  rw [h₂.last, h₁.last, List.getLast?_append, Option.or_assoc]

theorem leads_advance (s : State) : s.Leads s.advance := by
  unfold advance
  split
  · exact Leads.refl s
  · next t rest hrest =>
    exact ⟨hrest ▸ List.suffix_cons t rest, rfl, rfl, Nat.le_refl _, List.prefix_refl _⟩

theorem nextId_advance (s : State) : s.advance.nextId = s.nextId := by
  unfold advance
  split <;> rfl

theorem rest_advance {t : Token} {rest : List Token} (h : s.rest = t :: rest) :
    s.advance.rest = rest := by
  simp only [advance, h]

theorem reads_advance {t : Token} {rest : List Token} (h : s.rest = t :: rest) :
    s.Reads [t] s.advance := by
  simp only [advance, h]
  exact ⟨h, rfl⟩

theorem next_of_rest {t : Token} {rest : List Token} (h : s.rest = t :: rest) : s.next = t := by
  simp [next, h]

theorem leads_report (s : State) (r : Report) : s.Leads (s.report r) :=
  ⟨List.suffix_refl _, rfl, rfl, Nat.le_refl _, by simp [report]⟩

theorem resume_suffix (last : Token) (tokens : List Token) : (resume last tokens).2 <:+ tokens := by
  induction tokens generalizing last with
  | nil => exact List.suffix_refl _
  | cons t rest ih =>
    simp only [resume]
    split
    · exact List.suffix_refl _
    · exact (ih t).trans (List.suffix_cons t rest)

theorem leads_synchronize (s : State) : s.Leads s.synchronize := by
  unfold synchronize
  split
  · exact Leads.refl s
  · next t rest hrest =>
    refine ⟨?_, rfl, rfl, Nat.le_refl _, List.prefix_refl _⟩
    rw [hrest]
    exact (resume_suffix t rest).trans (List.suffix_cons t rest)

/-- A token of a kind that is read next is the first of the rest. -/
theorem exists_rest_of_startsWith {kind : Kind} (h : s.startsWith kind = true) :
    ∃ t rest, s.rest = t :: rest ∧ t.kind = kind := by
  cases hrest : s.rest with
  | nil => simp [startsWith, hrest] at h
  | cons t rest => exact ⟨t, rest, rfl, by simpa [startsWith, hrest] using h⟩

/-- Where the end marker is not read next, some token is. -/
theorem exists_rest_of_next (hs : s.Proper) (h : s.next.kind ≠ .endOfInput) :
    ∃ t rest, s.rest = t :: rest ∧ s.next = t := by
  cases hrest : s.rest with
  | nil => exact absurd (by simpa [next, hrest, Proper] using hs) h
  | cons t rest => exact ⟨t, rest, rfl, next_of_rest hrest⟩

end State

/-- What a rule does from a state: it only moves on, and a result without complaints comes with the
tokens that were read for it. -/
def Meets {α : Type} (rule : Rule α) (s : State) (Post : List Token → α → State → Prop) : Prop :=
  match rule s with
  | .ok a s' =>
    s.Leads s' ∧ (s'.reports.size = s.reports.size → ∃ read, s.Reads read s' ∧ Post read a s')
  | .error _ s' => s.Leads s'

section Meets

variable {α β : Type} {rule : Rule α} {s : State} {Post Post' : List Token → α → State → Prop}

theorem Meets.mono (h : Meets rule s Post)
    (himp : ∀ read a s', s.Leads s' → s.Reads read s' → Post read a s' → Post' read a s') :
    Meets rule s Post' := by
  unfold Meets at h ⊢
  split
  · next a s' hrun =>
    simp only [hrun] at h
    refine ⟨h.1, fun hquiet => ?_⟩
    obtain ⟨read, hread, hpost⟩ := h.2 hquiet
    exact ⟨read, hread, himp read a s' h.1 hread hpost⟩
  · next hrun => simpa only [hrun] using h

theorem Meets.leads (h : Meets rule s Post) {a : α} {s' : State} (hrun : rule s = .ok a s') :
    s.Leads s' := by
  unfold Meets at h
  rw [hrun] at h
  exact h.1

/-- What was read, where there is nothing to complain about. -/
theorem Meets.reads (h : Meets rule s Post) {a : α} {s' : State} (hrun : rule s = .ok a s')
    (hquiet : s'.reports.size = 0) : ∃ read, s.Reads read s' ∧ Post read a s' := by
  have hle := (h.leads hrun).reports
  unfold Meets at h
  rw [hrun] at h
  exact h.2 (by omega)

theorem Meets.pure {a : α} (h : Post [] a s) : Meets (pure a) s Post :=
  ⟨State.Leads.refl s, fun _ => ⟨[], State.Reads.refl s, h⟩⟩

theorem meets_throw (stop : Stop) : Meets (throw stop : Rule α) s Post := State.Leads.refl s

theorem meets_fail (cause : Cause) : Meets (fail cause : Rule α) s Post := State.Leads.refl s

/-- Two rules in sequence. What the second one has to show may use what the first one read. -/
theorem Meets.bind {next : α → Rule β} {Q : List Token → β → State → Prop}
    (h : Meets rule s Post)
    (hnext : ∀ a s₁, s.Leads s₁ → Meets (next a) s₁ fun more b s₂ =>
      ∀ read, s.Reads read s₁ → Post read a s₁ → Q (read ++ more) b s₂) :
    Meets (rule >>= next) s Q := by
  unfold Meets at h
  cases hrun : rule s with
  | error e s₁ =>
    have hbind : (rule >>= next) s = .error e s₁ := by
      simp only [Bind.bind, EStateM.bind, hrun]
    simp only [hrun] at h
    simpa only [Meets, hbind] using h
  | ok a s₁ =>
    have hbind : (rule >>= next) s = next a s₁ := by
      simp only [Bind.bind, EStateM.bind, hrun]
    simp only [hrun] at h
    have h₂ := hnext a s₁ h.1
    unfold Meets at h₂ ⊢
    rw [hbind]
    split
    · next b s₂ hrun₂ =>
      simp only [hrun₂] at h₂
      refine ⟨h.1.trans h₂.1, fun hquiet => ?_⟩
      have hle₁ := h.1.reports
      have hle₂ := h₂.1.reports
      obtain ⟨read, hread, hpost⟩ := h.2 (by omega)
      obtain ⟨more, hmore, hpost₂⟩ := h₂.2 (by omega)
      exact ⟨read ++ more, hread.trans hmore, hpost₂ read hread hpost⟩
    · next e s₂ hrun₂ =>
      simp only [hrun₂] at h₂
      exact h.1.trans h₂

theorem Meets.map {f : α → β} {Q : List Token → β → State → Prop}
    (h : Meets rule s fun read a s' => Q read (f a) s') : Meets (f <$> rule) s Q := by
  unfold Meets at h ⊢
  cases hrun : rule s with
  | error e s₁ => simpa only [Functor.map, EStateM.map, hrun] using h
  | ok a s₁ => simpa only [Functor.map, EStateM.map, hrun] using h

/-! ### Rules that only look -/

theorem Meets.peek {next : Kind → Rule β} {Q : List Token → β → State → Prop}
    (h : Meets (next s.next.kind) s Q) : Meets (peekKind >>= next) s Q := h

theorem Meets.check {kind : Kind} {next : Bool → Rule β} {Q : List Token → β → State → Prop}
    (h : Meets (next (s.startsWith kind)) s Q) : Meets (Parser.check kind >>= next) s Q :=
  h

theorem Meets.atEnd {next : Bool → Rule β} {Q : List Token → β → State → Prop}
    (h : Meets (next s.atEnd) s Q) : Meets (Parser.atEnd >>= next) s Q := h

theorem Meets.get {next : State → Rule β} {Q : List Token → β → State → Prop}
    (h : Meets (next s) s Q) : Meets (get >>= next) s Q := h

/-! ### Small rules -/

theorem meets_expect (kind : Kind) (cause : Cause) :
    Meets (expect kind cause) s fun read t s' =>
      read = [t] ∧ t.kind = kind ∧ s'.nextId = s.nextId := by
  unfold Meets expect
  split
  · next a s' hrun =>
    split at hrun
    · next hstart =>
      cases hrun
      obtain ⟨t, rest, hrest, hkind⟩ := State.exists_rest_of_startsWith hstart
      refine ⟨s.leads_advance, fun _ => ⟨[t], State.reads_advance hrest, ?_⟩⟩
      rw [State.next_of_rest hrest]
      exact ⟨rfl, hkind, s.nextId_advance⟩
    · cases hrun
  · next e s' hrun =>
    split at hrun
    · cases hrun
    · cases hrun
      exact State.Leads.refl s

/-- A token is taken, or the state stays as it is. -/
theorem meets_accept (kind : Kind) :
    Meets (accept kind) s fun read taken s' =>
      s'.nextId = s.nextId ∧
        if taken then ∃ t, read = [t] ∧ t.kind = kind
        else read = [] ∧ s'.startsWith kind = false := by
  unfold Meets accept
  cases hstart : s.startsWith kind with
  | true =>
    obtain ⟨t, rest, hrest, hkind⟩ := State.exists_rest_of_startsWith hstart
    exact ⟨s.leads_advance,
      fun _ => ⟨[t], State.reads_advance hrest, s.nextId_advance, t, rfl, hkind⟩⟩
  | false => exact ⟨State.Leads.refl s, fun _ => ⟨[], State.Reads.refl s, rfl, rfl, hstart⟩⟩

theorem meets_acceptToken? (among : Kind → Bool) :
    Meets (acceptToken? among) s fun read taken? s' =>
      s'.nextId = s.nextId ∧
        match taken? with
        | some t => read = [t] ∧ among t.kind = true
        | none => read = [] := by
  unfold Meets acceptToken?
  cases hrest : s.rest with
  | nil => exact ⟨State.Leads.refl s, fun _ => ⟨[], State.Reads.refl s, rfl, rfl⟩⟩
  | cons t rest =>
    cases hamong : among t.kind with
    | true =>
      simp only [hamong, if_true]
      exact ⟨s.leads_advance,
        fun _ => ⟨[t], State.reads_advance hrest, s.nextId_advance, by simp⟩⟩
    | false =>
      simp only [hamong, Bool.false_eq_true, if_false]
      exact ⟨State.Leads.refl s, fun _ => ⟨[], State.Reads.refl s, by simp⟩⟩

theorem meets_takeToken (hs : s.Proper) (h : s.next.kind ≠ .endOfInput) :
    Meets takeToken s fun read t s' => read = [t] ∧ t = s.next ∧ s'.nextId = s.nextId := by
  obtain ⟨t, rest, hrest, hnext⟩ := State.exists_rest_of_next hs h
  refine ⟨s.leads_advance, fun _ => ⟨[t], State.reads_advance hrest, ?_⟩⟩
  rw [hnext]
  exact ⟨rfl, rfl, s.nextId_advance⟩

/-- Taking a token that is known to be read next. -/
theorem Meets.take {t : Token} {rest : List Token} {next : Token → Rule β}
    {Q : List Token → β → State → Prop} (hrest : s.rest = t :: rest)
    (h : Meets (next t) s.advance fun more b s' => Q (t :: more) b s') :
    Meets (takeToken >>= next) s Q := by
  have hrun : (takeToken >>= next) s = next t s.advance := by
    rw [← State.next_of_rest hrest]
    rfl
  have hadvance := s.leads_advance
  have hreports : s.advance.reports = s.reports := by
    unfold State.advance
    split <;> rfl
  unfold Meets at h ⊢
  rw [hrun]
  split
  · next b s₂ hrun₂ =>
    simp only [hrun₂] at h
    refine ⟨hadvance.trans h.1, fun hquiet => ?_⟩
    obtain ⟨more, hmore, hpost⟩ := h.2 (by rw [hquiet, hreports])
    exact ⟨t :: more, (State.reads_advance hrest).trans hmore, hpost⟩
  · next e s₂ hrun₂ =>
    simp only [hrun₂] at h
    exact hadvance.trans h

theorem meets_complain (t : Token) (cause : Cause) :
    Meets (complain t cause) s fun _ _ _ => False :=
  ⟨s.leads_report _, fun hquiet => by simp [State.report] at hquiet⟩

theorem meets_complainNext (cause : Cause) :
    Meets (complainNext cause) s fun _ _ _ => False :=
  ⟨s.leads_report _, fun hquiet => by simp [State.report] at hquiet⟩

/-- A rule behind a complaint that is made under a condition. -/
theorem Meets.unless {c : Prop} [Decidable c] {complaint : Rule Unit} {next : Unit → Rule β}
    {Q : State → List Token → β → State → Prop}
    (hcomplaint : Meets complaint s fun _ _ _ => False)
    (hnext : ∀ s₁, s.Leads s₁ → Meets (next ()) s₁ (Q s₁)) :
    Meets (if c then complaint >>= next else next ()) s fun read b s' =>
      ¬c ∧ Q s read b s' := by
  by_cases hc : c
  · rw [if_pos hc]
    refine Meets.bind hcomplaint fun _ s₁ hs₁ => ?_
    exact (hnext s₁ hs₁).mono fun _ _ _ _ _ _ _ _ hfalse => hfalse.elim
  · rw [if_neg hc]
    exact (hnext s (State.Leads.refl s)).mono fun _ _ _ _ _ hpost => ⟨hc, hpost⟩

theorem meets_freshId :
    Meets freshId s fun read id s' => read = [] ∧ id = s.nextId ∧ s'.nextId = s.nextId + 1 :=
  ⟨⟨List.suffix_refl _, rfl, rfl, Nat.le_succ _, List.prefix_refl _⟩,
   fun _ => ⟨[], ⟨rfl, rfl⟩, rfl, rfl, rfl⟩⟩

/-- A rule in a different number of open loops. -/
theorem meets_withLoops {loops : Nat → Nat}
    (h : Meets rule { s with loops := loops s.loops } fun read a s' =>
      Post read a { s' with loops := s.loops }) : Meets (withLoops loops rule) s Post := by
  unfold Meets at h
  unfold Meets withLoops
  cases hrun : rule { s with loops := loops s.loops } with
  | error e s₁ =>
    simp only [hrun] at h
    exact ⟨h.rest, h.ending, rfl, h.nextId, h.kept⟩
  | ok a s₁ =>
    simp only [hrun] at h
    refine ⟨⟨h.1.rest, h.1.ending, rfl, h.1.nextId, h.1.kept⟩, fun hquiet => ?_⟩
    obtain ⟨read, hread, hpost⟩ := h.2 hquiet
    exact ⟨read, ⟨hread.rest, hread.last⟩, hpost⟩

/-- Recovery from a fault is never without a complaint. -/
theorem meets_recover (h : Meets rule s Post) :
    Meets (recover rule) s fun read taken? s' => ∃ a, taken? = some a ∧ Post read a s' := by
  unfold Meets at h
  unfold Meets recover
  cases hrun : rule s with
  | ok a s₁ =>
    simp only [hrun] at h
    refine ⟨h.1, fun hquiet => ?_⟩
    obtain ⟨read, hread, hpost⟩ := h.2 hquiet
    exact ⟨read, hread, a, rfl, hpost⟩
  | error e s₁ =>
    simp only [hrun] at h
    cases e with
    | outOfFuel => exact h
    | fault r =>
      refine ⟨(h.trans (s₁.leads_report r)).trans (State.leads_synchronize _), fun hquiet => ?_⟩
      have hle := h.reports
      have hsync : (s₁.report r).synchronize.reports.size = s₁.reports.size + 1 := by
        unfold State.synchronize
        split <;> simp [State.report]
      omega

end Meets

end Parser

end Roteiro
