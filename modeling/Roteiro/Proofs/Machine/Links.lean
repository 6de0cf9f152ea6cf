import Roteiro.Proofs.Machine.Pairing
import Roteiro.Proofs.Machine.Sound
import Roteiro.Proofs.Machine.Spelled

/-!
# Chains of frames end at the globals

A frame is opened inside of another one, and the way outwards from a frame leads from each frame to
the one around it. `Store.Chain` says that this way has an end: it comes to the globals after
finitely many frames, all of which are in the store.

That there is such a way from every frame in the store, even from one that nothing leads to any
more, cannot be seen from an action by itself: a frame may be opened inside of whatever frame a
reference names, and the way from the new frame ends only if that frame is there. So the machine is
run beside itself, under the scheme that knows how many frames there are and lets no code but that
of those frames be run (`Store.Linked.scheme`).

* `Store.Linked.chain`: in a linked store, every frame has its chain, which is its path.
* `Store.Linked.of_extends`: a store was linked if it is linked later.
* `Machine.Sound.linked`: a linked store is linked at the end of a run.
-/

namespace Roteiro

namespace Store

/-! ### Chains -/

/-- The frame next around a frame, if there is one. -/
def enclosing? (s : Store) (r : Ref .frames) : Option (Ref .frames) := (s.frame r).outer.head?

/-- `s.Chain r path`: the way outwards from `r` passes the frames of `path`, all of which are in the
store. It ends at the globals, around which there is no frame. -/
inductive Chain (s : Store) : Ref .frames → List (Ref .frames) → Prop
  | globals (hlt : globals.index < s.frames.size) (hend : s.enclosing? globals = none) :
    Chain s globals [globals]
  | link {r around : Ref .frames} {path : List (Ref .frames)} (hlt : r.index < s.frames.size)
    (haround : s.enclosing? r = some around) (hpath : Chain s around path) : Chain s r (r :: path)

/-- Every frame in the store is the one of the globals, around which there is nothing, or it lies in
an older frame, of which it has the path. -/
def Linked (s : Store) : Prop :=
  ∀ r : Ref .frames, r.index < s.frames.size →
    (r = globals ∧ (s.frame r).outer = []) ∨
      ∃ around : Ref .frames, around.index < r.index ∧ (s.frame r).outer = s.path around

variable {s t : Store}

theorem linked_initial : initial.Linked := by
  intro r hr
  have hglobals : r = globals := congrArg Ref.mk (Nat.lt_one_iff.mp hr)
  exact .inl ⟨hglobals, hglobals ▸ rfl⟩

namespace Linked

/-- **In a linked store, every frame has its chain**, and its path is that chain. -/
theorem chain (h : s.Linked) {r : Ref .frames} (hr : r.index < s.frames.size) :
    s.Chain r (s.path r) := by
  rcases h r hr with ⟨rfl, houter⟩ | ⟨around, hlt, houter⟩
  · rw [path, houter]
    exact .globals hr (by rw [enclosing?, houter, List.head?_nil])
  · rw [path, houter]
    exact .link hr (by rw [enclosing?, houter, path, List.head?_cons])
      (h.chain (Nat.lt_trans hlt hr))
termination_by r.index

/-- Since frames are never taken away and keep what is around them, a store that is linked later is
linked already. -/
theorem of_extends (h : t.Linked) (hs : s.Extends t) : s.Linked := by
  intro r hr
  rw [← hs.outer r hr]
  rcases h r (Nat.lt_of_lt_of_le hr hs.size) with hglobals | ⟨around, hlt, houter⟩
  · exact .inl hglobals
  · refine .inr ⟨around, hlt, ?_⟩
    rw [houter, path, path, hs.outer around (Nat.lt_trans hlt hr)]

theorem congr (h : s.Linked) (hframes : t.frames = s.frames) : t.Linked :=
  h.of_extends (.of_frames hframes.symm)

theorem define (h : s.Linked) (r : Ref .frames) (name : String) (v : Value) :
    (s.define r name v).Linked :=
  h.of_extends ⟨Nat.le_of_eq (size_define s r name v), fun q _ => (outer_define s r q name v).symm⟩

/-- A frame is opened inside of one that is there. -/
theorem addFrame (h : s.Linked) {around : Ref .frames} (haround : around.index < s.frames.size)
    (bindings : Bindings Value) : (s.addFrame around bindings).2.Linked := by
  have hpath : ∀ {q : Ref .frames}, q.index < s.frames.size →
      (s.addFrame around bindings).2.path q = s.path q := by
    intro q hq
    rw [path, path, frame_addFrame hq]
  intro r hr
  rw [size_addFrame] at hr
  rcases Nat.lt_succ_iff_lt_or_eq.mp hr with hold | hnew
  · rw [frame_addFrame hold]
    refine (h r hold).imp_right ?_
    rintro ⟨around', hlt, houter⟩
    exact ⟨around', hlt, by rw [houter, hpath (Nat.lt_trans hlt hold)]⟩
  · obtain rfl : r = (s.addFrame around bindings).1 := congrArg Ref.mk hnew
    refine .inr ⟨around, haround, ?_⟩
    rw [frame_addFrame_self, hpath haround]

end Linked

end Store

/-! ### A machine beside itself -/

namespace Likeness

/-- The same code has the same names. -/
theorem spelled_sameCode : sameCode.Spelled where
  kind h := congrArg Token.kind h
  lexeme h := congrArg Token.lexeme h
  keyword h := congrArg Token.kind h
  occurrence h := congrArg Token.lexeme h.2
  binder h := congrArg Token.lexeme h.2
  named h := congrArg Token.lexeme h.2

theorem faults_sameCode :
    sameCode.Faults fun t failure t' failure' => t' = t ∧ failure' = failure where
  token h _ := ⟨h, rfl⟩
  noReceiver h := ⟨h ▸ rfl, rfl⟩
  missing h := ⟨h.2, h.2 ▸ rfl⟩

/-- The scheme of the same code in the same frames. -/
def sameScheme : Scheme sameCode :=
  spelled_sameCode.scheme (fun T T' => T' = T) (fun hn hT => by rw [hT, hn.1]) faults_sameCode

end Likeness

namespace Store

open Likeness

variable {s t : Store}

/-- The frames of two stores are the same, and they are linked. So many of them are known. -/
structure Linked.Frames (known : Nat) (s t : Store) : Prop where
  same : sameScheme.Frames () s t
  size : known ≤ s.frames.size
  linked : s.Linked

/-- A name is bound anew. -/
theorem Linked.Frames.define {known : Nat} (h : Linked.Frames known s t) (r : Ref .frames)
    (name : String) (v : Value) {t' : Store} (ht' : sameScheme.Frames () (s.define r name v) t') :
    Linked.Frames known (s.define r name v) t' :=
  ⟨ht', by rw [size_define]; exact h.size, h.linked.define r name v⟩

/-- The scheme of a machine beside itself. A frame that is known is in the store, and only such
frames get a frame inside of them. -/
def Linked.scheme : Scheme .sameCode :=
  { sameScheme with
    World := Nat
    le := (· ≤ ·)
    Frames := Linked.Frames
    Marked := fun known r r' bs => sameScheme.Marked () r r' bs ∧ r.index < known
    refl := Nat.le_refl
    trans := Nat.le_trans
    marked_mono := fun h hw => ⟨h.1, Nat.lt_of_lt_of_le h.2 hw⟩
    congr := fun h ht ht' =>
      ⟨sameScheme.congr h.same ht ht', by rw [ht]; exact h.size, h.linked.congr ht⟩
    enter := by
      intro known s t r r' bs b x x' h hr hx
      obtain ⟨_, _, hsame, hmarked⟩ := sameScheme.enter h.same hr.1 hx
      have hlinked := h.linked.addFrame (Nat.lt_of_lt_of_le hr.2 h.size) x
      have hsize := Nat.le_of_eq (size_addFrame s r x).symm
      exact ⟨s.frames.size + 1, Nat.le_succ_of_le h.size, ⟨hsame, hsize, hlinked⟩, hmarked,
        Nat.lt_succ_self _⟩
    define := fun h hr hn v => h.define _ _ v (sameScheme.define h.same hr.1 hn v)
    define_named := fun h hr hn v => h.define _ _ v (sameScheme.define_named h.same hr.1 hn v)
    receiver := fun h hr => sameScheme.receiver h.same hr.1
    read := fun hn hr h hT => sameScheme.read hn hr.1 h.same hT
    assign := fun hn hr h hT => rel_imp (fun _ _ hframe v => h.define _ _ v (hframe v))
      (sameScheme.assign hn hr.1 h.same hT) }

end Store

namespace Machine

/-! ### Runs -/

/-- A sound machine is like itself, under a scheme of the same code by which its frames
correspond. -/
theorem Sound.like_beside {m : Machine} (h : m.Sound) {S : Scheme .sameCode} {w : S.World}
    (hframes : S.Frames w m.store m.store)
    (hmarked : ∀ r, m.store.Anchored r → S.Marked w r r []) (hdepths : S.Depths m.depths m.depths) :
    m.Like S w [] m where
  store :=
    { frames := hframes
      arrays := rfl
      instances := rfl
      functions_size := rfl
      functions := fun f => ⟨rfl, false, [], hmarked _ (h.store.closure f),
        FunctionDecl.like_self _ _⟩
      classes_size := rfl
      classes := fun _ => ⟨rfl, List.forall₂_same.mpr fun _ hq =>
        ⟨rfl, rfl, [], hmarked _ (h.store.method_of_mem hq), FunctionDecl.like_self _ _⟩⟩ }
  marked := hmarked _ h.current
  depths := hdepths
  host := rfl

/-- **A linked store is linked at the end of a run**, if the references that a lookup may follow
lead to frames at the start. -/
theorem Sound.linked {m : Machine} (h : m.Sound) (hm : m.store.Linked) (fuel : Nat)
    (program : List Stmt) : (final (execProgram fuel program) m).store.Linked := by
  have hlike : m.Like Store.Linked.scheme m.store.frames.size [] m :=
    h.like_beside ⟨rfl, Nat.le_refl _, hm⟩ (fun _ hr => ⟨rfl, hr.lt⟩) rfl
  have hended := execProgram_like (S := Store.Linked.scheme) fuel (likeStmts_self program rfl)
    m.store.frames.size m m (Nat.le_refl _) hlike
  unfold final
  generalize execProgram fuel program m = result at hended ⊢
  cases result with
  | ok _ m' =>
    cases hended with
    | ok _ _ hm' => exact hm'.store.frames.linked
  | error _ m' =>
    cases hended with
    | error _ _ hm' => exact hm'.store.frames.linked
    | quit hquit => exact hquit.1.elim

end Machine

end Roteiro
