import Roteiro.Proofs.Machine.Closed
import Roteiro.Proofs.Machine.Links

/-!
# Well-formed stores

Frames, functions, classes, arrays and instances refer to one another by numbers, and may do so in
circles: a frame binds the function that was made in it, an instance keeps one of its own methods in
a field, an array holds itself. A store is *well-formed* if every such reference leads to something
that is there, and if the way outwards from every frame ends at the globals.

Nothing of what a reference leads to is ever exchanged for something else. `Store.Lasts` says so of
two stores, of which one comes after the other.

* `steady_lasts`: no action takes anything away from the store or changes what lasts.
* `Intact.run`, `Intact.reached`: stores stay well-formed to the end of a run, and are well-formed
  at the start and at the end of every evaluation in it.
-/

namespace Roteiro

namespace Store

/-- All references in the store lead to something in the store, and the frames around every frame
end at the globals. -/
structure WellFormed (s : Store) : Prop extends Closed s where
  /-- The frame that a function was made in. -/
  functions : ∀ c ∈ s.functions, c.frame.index < s.frames.size
  /-- The frames that the methods of a class were made in. -/
  methods : ∀ k ∈ s.classes, ∀ p ∈ k.methods, p.2.frame.index < s.frames.size
  /-- The path of a frame is its chain. -/
  chains : ∀ r : Ref .frames, r.index < s.frames.size → s.Chain r (s.path r)

/-- `s.Lasts s'`: whatever is in `s` is still there in `s'`. Frames are in the same frames as before,
instances are of the same classes, functions have the same code, lie in the same frame and are
initializers if they were, and classes have the same methods. -/
def Lasts (s s' : Store) : Prop := s.Persists s' ∧ s.Extends s'

end Store

namespace Machine

/-- No action changes what is around a frame, and it does not matter which frame is the present
one. -/
theorem steady_extends : Steady fun m m' => m.store.Extends m'.store :=
  { kept_extends with moved := fun _ _ => .of_frames rfl }

/-- **No action changes what lasts.** -/
theorem steady_lasts : Steady fun m m' => m.store.Lasts m'.store :=
  steady_persists.and steady_extends

/-- The store is well-formed, and the present frame is in it. -/
structure WellFormed (m : Machine) : Prop where
  store : m.store.WellFormed
  current : m.current.index < m.store.frames.size

/-- The evaluation is started in a well-formed machine, with values that lead into its store, and
leaves it in a well-formed machine. -/
structure Moment.WellFormed (M : Moment) : Prop where
  machine : M.machine.WellFormed
  task : M.task.In M.machine.store
  /-- The frame of a function that is called. -/
  callee : ∀ c paren vs, M.task = .apply c paren vs → c.frame.index < M.machine.store.frames.size
  final : M.final.WellFormed

/-- What makes a machine well-formed, and lasts from run to run. -/
structure Intact (m : Machine) : Prop where
  sound : m.Sound
  closed : m.store.Closed
  linked : m.store.Linked

theorem intact_initial (host : Host) : (initial host).Intact where
  sound := ⟨.initial, Store.Sound.initial.globals⟩
  closed := Store.closed_initial
  linked := Store.linked_initial

theorem ClosedAt.final {M : Moment} (h : ClosedAt M) : M.final.store.Closed := by
  obtain ⟨n, task, m⟩ := M
  obtain ⟨hstore, htask⟩ := h
  cases task with
  | exec s => exact ((allSafe n).exec s hstore).final
  | execAll ss => exact ((allSafe n).execAll ss hstore).final
  | execLoop test body step => exact ((allSafe n).execLoop test body step hstore).final
  | eval e => exact ((allSafe n).eval e hstore).final
  | evalAll es => exact ((allSafe n).evalAll es hstore).final
  | call callee paren vs => exact ((allSafe n).call callee paren hstore htask.1 htask.2).final
  | apply c paren vs => exact ((allSafe n).apply c paren hstore htask).final

namespace Intact

variable {m : Machine}

theorem ready (h : m.Intact) (depths : Depths) (host : Host) : Intact { m with depths, host } :=
  ⟨⟨h.sound.store, h.sound.current⟩, h.closed, h.linked⟩

theorem wellFormed (h : m.Intact) : m.WellFormed where
  store :=
    { h.closed with
      functions := fun c hc => (h.sound.store.functions c hc).lt
      methods := fun k hk p hp => (h.sound.store.methods k hk p hp).lt
      chains := fun _ hr => h.linked.chain hr }
  current := h.sound.current.lt

theorem run (h : m.Intact) (fuel : Nat) (program : List Stmt) :
    (Machine.final (execProgram fuel program) m).Intact where
  sound := (h.sound.run fuel program).1
  closed := (closed_run h.closed fuel program).1
  linked := h.sound.linked h.linked fuel program

/-- **Every evaluation in a run starts and ends in a well-formed machine.** What is around a frame
at some time is around it at the end of the run, so it is enough that frames are linked then. -/
theorem reached (h : m.Intact) {fuel : Nat} {program : List Stmt} {M : Moment}
    (hM : Reached fuel program m M) : M.WellFormed := by
  have hsound := (h.sound.program fuel program).2 M hM
  have hclosed := (closed_run h.closed fuel program).2 M hM
  have hlinked : M.final.store.Linked :=
    (h.sound.linked h.linked fuel program).of_extends (steady_extends.reached hM).2
  have hstart : M.machine.Intact :=
    ⟨hsound.machine, hclosed.store,
      hlinked.of_extends (steady_extends.ran M.fuel M.task M.machine)⟩
  have hend : M.final.Intact :=
    ⟨hsound.keeps.machine hsound.machine, hclosed.final, hlinked⟩
  exact ⟨hstart.wellFormed, hclosed.task, fun c paren vs heq => (hsound.callee c paren vs heq).lt,
    hend.wellFormed⟩

end Intact

end Machine

end Roteiro
