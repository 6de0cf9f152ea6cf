import Roteiro.Proofs.Machine.Order
import Roteiro.Proofs.Session.Restored

/-!
# The history of a session

What a run does depends on the runs before it: functions stay in the store and are called later, and
the depths of their occurrences stay in the table. `Since host s past` says that the session `s` has
come about by running sources one after another, of which `past` were accepted, the latest one
first. In between anything may have happened to the host: prompts are written and lines are read,
and the clock does not stand still.

`Settled` collects what holds of a session and its past: whatever was evaluated was in its place,
with frames that fit the scopes of its source; the runs followed one another in time; and the table
has no entries under numbers that are still to be given out.

* `Since.settled`: this holds of every session.
* `Since.along`: so does whatever a run keeps, if it holds at the start.
* `Settled.opened_unique`: no frame is opened for two scopes in all the past.
-/

namespace Roteiro

open Scope Machine

namespace Session

/-- The run of an accepted program. -/
structure Played where
  program : List Stmt
  fuel : Nat
  /-- The machine at the start. -/
  machine : Machine

/-- The machine at the end of a run. -/
def Played.final (p : Played) : Machine := Machine.final (execProgram p.fuel p.program) p.machine

/-- `Since host s past`: sources were run from the start of a session up to `s`; those in `past`
were accepted. Any of the runs may have failed or been cut short, and between two of them the host
may have become another one. -/
inductive Since (host : Host) : Session → List Played → Prop
  | start : Since host (.start host) []
  | refused {s : Session} {past : List Played} (h : Since host s past) (fuel : Nat)
      (source : String) (d : Diagnostics)
      (hrefused : ¬∃ program s', d.reports = [] ∧ s.Accepts source program s') :
      Since host (s.run fuel source d).1 past
  | accepted {s s' : Session} {past : List Played} {source : String} {program : List Stmt}
      {d : Diagnostics} (h : Since host s past) (fuel : Nat) (hd : d.reports = [])
      (haccepts : s.Accepts source program s') :
      Since host (s.run fuel source d).1 (⟨program, fuel, s'.machine⟩ :: past)
  | outside {s : Session} {past : List Played} (h : Since host s past) (host' : Host) :
      Since host (s.withHost host') past

/-- Every run goes on with the history, whatever the source and the complaints that are held. -/
theorem Since.run {host : Host} {s : Session} {past : List Played} (h : Since host s past)
    (fuel : Nat) (source : String) (d : Diagnostics) :
    ∃ past', past <:+ past' ∧ Since host (s.run fuel source d).1 past' := by
  by_cases haccepted : ∃ program s', d.reports = [] ∧ s.Accepts source program s'
  · obtain ⟨program, s', hd, haccepts⟩ := haccepted
    exact ⟨_, List.suffix_cons _ _, .accepted h fuel hd haccepts⟩
  · exact ⟨past, List.suffix_refl _, .refused h fuel source d haccepted⟩

/-- One of the runs has come to the evaluation. -/
def Visited (past : List Played) (M : Moment) : Prop :=
  ∃ p ∈ past, Reached p.fuel p.program p.machine M

/-- The scopes around the occurrence with some number, and the name there, in whichever of the
programs has it. -/
def surroundings (past : List Played) (id : Nat) : Option (List Layer × String) :=
  past.findSome? fun p => aroundStmts id p.program []

/-- What is known of an occurrence in one of the programs: its number is given out, the source has
its surroundings, and the table `T` has its depth. -/
structure Recorded (past : List Played) (nextId : Nat) (T : Depths) (id : Nat) (Γ : List Layer)
    (name : String) : Prop where
  lt : id < nextId
  around : surroundings past id = some (Γ, name)
  depth : T[id]? = depthIn Γ name
  sound : ∀ L ∈ Γ, L.Sound id
  nested : Nested Γ

/-- What holds of a session and its past. -/
structure Settled (s : Session) (past : List Played) : Prop where
  current : s.machine.current = Store.globals
  fresh : ∀ id, s.nextId ≤ id → s.machine.depths[id]? = none
  housed : Housed (Visited past) (Recorded past s.nextId s.machine.depths) s.machine.store
  inPlace : ∀ M, Visited past M → InPlace (Visited past) (Recorded past s.nextId M.machine.depths) M
  ended : ∀ p ∈ past, p.final.age ≤ s.machine.age
  apart : past.Pairwise fun later earlier => earlier.final.age ≤ later.machine.age

/-! ### More and more is known -/

theorem Visited.cons {past : List Played} {M : Moment} (h : Visited past M) (p : Played) :
    Visited (p :: past) M := by
  obtain ⟨q, hq, hreached⟩ := h
  exact ⟨q, List.mem_cons_of_mem p hq, hreached⟩

theorem not_visited_nil (M : Moment) : ¬Visited [] M := by
  rintro ⟨p, hp, -⟩
  cases hp

/-- An evaluation belongs to the latest run or to one before. -/
theorem Visited.forall_cons {past : List Played} {p : Played} {Q : Moment → Prop}
    (hlatest : ∀ M, Reached p.fuel p.program p.machine M → Q M)
    (hbefore : ∀ M, Visited past M → Q M) : ∀ M, Visited (p :: past) M → Q M := by
  rintro M ⟨q, hq, hM⟩
  rcases List.mem_cons.mp hq with rfl | hq
  · exact hlatest M hM
  · exact hbefore M ⟨q, hq, hM⟩

theorem Visited.within {past : List Played} {M M' : Moment} (h : Visited past M)
    (hwithin : Within M' M) : Visited past M' := by
  obtain ⟨p, hp, hreached⟩ := h
  exact ⟨p, hp, hreached.within hwithin⟩

/-- An occurrence that is known stays known when numbers are given out and depths are recorded under
the new numbers. -/
theorem Recorded.later {past past' : List Played} {nextId nextId' : Nat} {T T' : Depths} {id : Nat}
    {Γ : List Layer} {name : String} (h : Recorded past nextId T id Γ name)
    (hnext : nextId ≤ nextId') (hT : T'[id]? = T[id]?)
    (hpast : surroundings past' id = surroundings past id) :
    Recorded past' nextId' T' id Γ name :=
  ⟨Nat.lt_of_lt_of_le h.lt hnext, hpast.trans h.around, hT.trans h.depth, h.sound, h.nested⟩

/-- A program that does not have an occurrence does not change its surroundings. -/
theorem surroundings_cons_of_not_mem {p : Played} {past : List Played} {id : Nat}
    (h : id ∉ idsOfStmts p.program) : surroundings (p :: past) id = surroundings past id := by
  unfold surroundings
  rw [List.findSome?_cons, aroundStmts_of_not_mem p.program [] h]

theorem surroundings_cons_of_around {p : Played} {past : List Played} {id : Nat}
    {place : List Layer × String} (h : aroundStmts id p.program [] = some place) :
    surroundings (p :: past) id = some place := by
  unfold surroundings
  rw [List.findSome?_cons, h]

/-- Every statement of a program is in its place. -/
theorem placed_of_mem_program {P : Nat → List Layer → String → Prop} {ss : List Stmt}
    (h : placedStmts P ss []) {s : Stmt} (hs : s ∈ ss) : s.Placed P [] := by
  induction ss with
  | nil => cases hs
  | cons t ss ih =>
    rcases List.mem_cons.mp hs with rfl | hs
    · exact h.1
    · exact ih h.2 hs

/-! ### One run more -/

theorem settled_start (host : Host) : Settled (.start host) [] where
  current := rfl
  fresh _ _ := rfl
  housed := by
    refine ⟨fun c hc => ?_, fun k hk => ?_, .globals (Nat.zero_lt_one)⟩
    · simp [Session.start, Machine.initial, Store.initial] at hc
    · simp [Session.start, Machine.initial, Store.initial] at hk
  inPlace M hM := absurd hM (not_visited_nil M)
  ended := nofun
  apart := .nil

variable {s s' : Session} {past : List Played} {source : String} {program : List Stmt}

/-- A run that is refused changes nothing that matters. -/
theorem Settled.refused (h : Settled s past) (hrefused : Refused s s') : Settled s' past where
  current := hrefused.current.trans h.current
  fresh := by
    intro id hid
    rcases hrefused.depths id with hdepth | ⟨-, hlt⟩
    · exact hdepth.trans (h.fresh id (Nat.le_trans hrefused.nextId hid))
    · omega
  housed := by
    rw [hrefused.store]
    refine h.housed.mono (fun _ => id) fun id Γ name hrecorded => ?_
    refine hrecorded.later hrefused.nextId ?_ rfl
    rcases hrefused.depths id with hdepth | ⟨hge, -⟩
    · exact hdepth
    · exact absurd hrecorded.lt (Nat.not_lt.mpr hge)
  inPlace M hM :=
    (h.inPlace M hM).mono (fun _ => id) fun _ _ _ hrecorded =>
      hrecorded.later hrefused.nextId rfl rfl
  ended p hp := by
    have hended := h.ended p hp
    unfold age at hended ⊢
    rwa [hrefused.store]
  apart := h.apart

/-- The host does not matter either. -/
theorem Settled.withHost (h : Settled s past) (host : Host) : Settled (s.withHost host) past :=
  ⟨h.current, h.fresh, h.housed, h.inPlace, h.ended, h.apart⟩

/-- What is known before an accepted program is run. -/
theorem Recorded.ahead (haccepts : s.Accepts source program s') (fuel : Nat) {T T' : Depths}
    (hT : ∀ id, id < s.nextId → T'[id]? = T[id]?) {id : Nat} {Γ : List Layer} {name : String}
    (hrecorded : Recorded past s.nextId T id Γ name) :
    Recorded (⟨program, fuel, s'.machine⟩ :: past) s'.nextId T' id Γ name := by
  refine hrecorded.later haccepts.numbered.le (hT id hrecorded.lt) ?_
  refine surroundings_cons_of_not_mem fun hmem => ?_
  have hge := ((haccepts.numbered.mem_iff id).mp hmem).1
  exact absurd hrecorded.lt (Nat.not_lt.mpr hge)

/-- The occurrences of an accepted program are known when it is run. -/
theorem Settled.placed (h : Settled s past) (haccepts : s.Accepts source program s') (fuel : Nat) :
    placedStmts (Recorded (⟨program, fuel, s'.machine⟩ :: past) s'.nextId s'.machine.depths)
      program [] := by
  refine placedStmts_mono (fun id Γ name hoccurs => ?_) program haccepts.occurs
  have hid := mem_ids_of_occurs hoccurs
  have hright := haccepts.rightAt h.fresh hid
  have haround := hoccurs.around
  rw [haround, Option.bind_some] at hright
  exact ⟨((haccepts.numbered.mem_iff id).mp hid).2, surroundings_cons_of_around haround, hright,
    hoccurs.sound, hoccurs.nested⟩

/-- **An accepted program keeps all in its place.** The invariant of a single evaluation is
`InPlace`; it passes to the evaluations inside (`InPlace.leads`), whose actions disturb nothing
(`kept_continues`). -/
theorem Settled.accepted (h : Settled s past) (haccepts : s.Accepts source program s')
    (fuel : Nat) :
    Settled (s'.execute fuel program).1 (⟨program, fuel, s'.machine⟩ :: past) := by
  let p : Played := ⟨program, fuel, s'.machine⟩
  have hstore : s'.machine.store = s.machine.store := by rw [haccepts.ready]
  have hcurrent : s'.machine.current = Store.globals := by
    rw [haccepts.ready]
    exact h.current
  have hhoused : Housed (Visited (p :: past)) (Recorded (p :: past) s'.nextId s'.machine.depths)
      s'.machine.store := by
    rw [hstore]
    exact h.housed.mono (fun M hM => hM.cons p) fun id Γ name =>
      Recorded.ahead haccepts fuel fun id hid => haccepts.depths_of_lt hid
  have hstart : ∀ t ∈ program, ∀ m',
      Continues (Visited (p :: past)) (Recorded (p :: past) s'.nextId s'.machine.depths)
        s'.machine m' → Reached fuel program s'.machine ⟨fuel, .exec t, m'⟩ →
      InPlace (Visited (p :: past)) (Recorded (p :: past) s'.nextId s'.machine.depths)
        ⟨fuel, .exec t, m'⟩ := by
    intro t ht m' hm' hreached
    have hhoused' := hm'.housed hhoused
    refine ⟨⟨p, List.mem_cons_self, hreached⟩, hhoused',
      ⟨[], placed_of_mem_program (h.placed haccepts fuel) ht, ?_⟩,
      fun _ _ _ heq => by cases heq⟩
    have hglobals : m'.current = Store.globals := hm'.current.trans hcurrent
    dsimp only
    rw [hglobals]
    exact hhoused'.globals
  obtain ⟨hend, hreached⟩ := kept_continues.reached (fun hM => hM.known)
    (fun hM hin => hM.leads (fun hV hin => hV.within hin) hin) hstart
  have hages : s.machine.age = s'.machine.age := by rw [age, age, hstore]
  rw [execute_machine]
  constructor
  · exact hend.current.trans hcurrent
  · intro id hid
    dsimp only at hid ⊢
    rw [hend.depths, haccepts.records.frame id fun hmem => ?_]
    · exact h.fresh id (Nat.le_trans haccepts.numbered.le hid)
    · have hlt := ((haccepts.numbered.mem_iff id).mp hmem).2
      omega
  · dsimp only
    rw [hend.depths]
    exact hend.housed hhoused
  · refine Visited.forall_cons (fun M hM => ?_) fun M hM => ?_
    · dsimp only
      rw [hM.depths]
      exact hreached M hM
    · exact (h.inPlace M hM).mono (fun M hM => hM.cons p) fun id Γ name =>
        Recorded.ahead haccepts fuel fun _ _ => rfl
  · intro q hq
    rcases List.mem_cons.mp hq with rfl | hq
    · exact Nat.le_refl _
    · have hq := h.ended q hq
      rw [hages] at hq
      exact Nat.le_trans hq (age_le_execProgram fuel program s'.machine)
  · refine List.pairwise_cons.mpr ⟨fun q hq => ?_, h.apart⟩
    have hq := h.ended q hq
    rwa [hages] at hq

theorem Since.settled {host : Host} (h : Since host s past) : Settled s past := by
  induction h with
  | start => exact settled_start host
  | @refused s past h fuel source d hrefused ih =>
    rcases s.run_cases fuel source d with haccepted | ⟨hrun, -⟩
    · exact absurd haccepted hrefused
    · exact ih.refused hrun
  | accepted h fuel hd haccepts ih =>
    rw [run_of_accepts haccepts hd]
    exact ih.accepted haccepts fuel
  | outside h host' ih => exact ih.withHost host'

/-- **What every run keeps holds of all stores of a session.** -/
theorem Since.along {host : Host} {P : Store → List Played → Prop} (hstart : P .initial [])
    (hplay : ∀ {s past p}, Since host s (p :: past) → P p.machine.store past →
      P p.final.store (p :: past))
    (h : Since host s past) : P s.machine.store past := by
  induction h with
  | start => exact hstart
  | @refused s past h fuel source d hrefused ih =>
    rcases s.run_cases fuel source d with haccepted | ⟨hrun, -⟩
    · exact absurd haccepted hrefused
    · exact hrun.store ▸ ih
  | @accepted s s' past source program d h fuel hd haccepts ih =>
    have hready : P s'.machine.store past := by
      rw [haccepts.ready]
      exact ih
    have hplayed := hplay (.accepted h fuel hd haccepts) hready
    rw [run_of_accepts haccepts hd, execute_machine]
    exact hplayed
  | outside h host' ih => exact ih

/-! ### Frames in all the past -/

/-- **No frame is opened twice in all the past of a session.** -/
theorem Settled.opening_unique (h : Settled s past) {X Y : Moment} {F : Ref .frames}
    (hX : Visited past X) (hY : Visited past Y) (hopenX : Opening X F) (hopenY : Opening Y F) :
    X = Y := by
  -- what is opened in a run is there before a later one starts
  have happart : ∀ {p q : Played} {X Y : Moment}, q.final.age ≤ p.machine.age →
      Reached p.fuel p.program p.machine X → Reached q.fuel q.program q.machine Y →
      Opening X F → Opening Y F → False := by
    intro p q X Y hle hX hY hopenX hopenY
    have hstop := (hopenY.reached hY).2
    exact Nat.lt_irrefl _
      (Nat.lt_of_lt_of_le hstop (Nat.le_trans hle (hopenX.reached hX).1))
  have hpairwise := h.apart
  clear h
  obtain ⟨p, hp, hX⟩ := hX
  obtain ⟨q, hq, hY⟩ := hY
  induction past with
  | nil => cases hp
  | cons latest past ih =>
    obtain ⟨hlatest, hpairwise⟩ := List.pairwise_cons.mp hpairwise
    rcases List.mem_cons.mp hp with hfirst | hp'
    · rcases List.mem_cons.mp hq with hfirst' | hq'
      · subst hfirst hfirst'
        exact hopenX.unique_reached hX hY hopenY
      · subst hfirst
        exact (happart (hlatest q hq') hX hY hopenX hopenY).elim
    · rcases List.mem_cons.mp hq with hfirst' | hq'
      · subst hfirst'
        exact (happart (hlatest p hp') hY hX hopenY hopenX).elim
      · exact ih hpairwise hp' hq'

/-- No frame is opened for two scopes. -/
theorem Settled.opened_unique (h : Settled s past) {F : Ref .frames} {S S' : Site}
    (hS : Opened (Visited past) F S) (hS' : Opened (Visited past) F S') : S = S' := by
  obtain ⟨X, hX, hopenX⟩ := hS
  obtain ⟨Y, hY, hopenY⟩ := hS'
  cases h.opening_unique hX hY hopenX.opening hopenY.opening
  exact hopenX.site_unique hopenY

end Session

end Roteiro
