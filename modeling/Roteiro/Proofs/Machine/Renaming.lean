import Roteiro.Proofs.Machine.Frames
import Roteiro.Proofs.Machine.Likeness
import Roteiro.Proofs.Tree.Renaming

/-!
# Running renamed programs

A program whose local names have been changed does the same. The frames of the two machines have the
same names, but for the two names that are exchanged in the frames that stand for scopes with a
mark. What is known of the frames is which scopes are around them: `World` has the marks of these
scopes, along the path from a frame, for every frame that code is run in.

An occurrence with a depth is looked up in the frame that the depth leads to, under the name that it
has by the mark of that frame; so it finds what it found before. One that has none is looked up
among the globals, in which nothing is renamed.

* `Renaming.scheme`: the scheme of programs that are renamed in scopes with a mark.
-/

namespace Roteiro

namespace Renaming

/-- The marks along the path from a frame, for the frames of which they are known. -/
abbrev World := Nat → Option (List Bool)

/-- The mark of a frame. -/
def World.mark (w : World) (r : Ref .frames) : Bool := innermost ((w r.index).getD [])

/-- At least as much is known. -/
def World.Le (w w' : World) : Prop := ∀ i bs, w i = some bs → w' i = some bs

/-- The frames are the same but for the names that are exchanged in those with a mark. -/
structure Frames (R : Renaming) (w : World) (s s' : Store) : Prop where
  size : s'.frames.size = s.frames.size
  frame : ∀ r, s'.frame r = { s.frame r with
    bindings := R.respell (w.mark r) (s.frame r).bindings }
  /-- Nothing is known of frames that are not there. -/
  unknown : ∀ i, s.frames.size ≤ i → w i = none
  path : ∀ r bs, w r.index = some bs →
    (∀ q ∈ s.path r, q.index < s.frames.size) ∧ (s.path r).map w.mark = bs
  globals : w Store.globals.index = some [false]

variable {R : Renaming} {w : World} {s s' : Store}

/-- More is known when a frame has been opened. -/
def World.opened (w : World) (i : Nat) (bs : List Bool) : World := Function.update w i (some bs)

theorem World.opened_self (w : World) (i : Nat) (bs : List Bool) : w.opened i bs i = some bs :=
  Function.update_self _ _ _

theorem World.opened_of_ne (w : World) {i j : Nat} (h : j ≠ i) (bs : List Bool) :
    w.opened i bs j = w j :=
  Function.update_of_ne h _ _

theorem World.mark_opened_self (w : World) {r : Ref .frames} {i : Nat} (h : r.index = i)
    (b : Bool) (bs : List Bool) : (w.opened i (b :: bs)).mark r = b := by
  rw [World.mark, h, w.opened_self]
  rfl

theorem World.mark_opened_of_ne (w : World) {r : Ref .frames} {i : Nat} (h : r.index ≠ i)
    (bs : List Bool) : (w.opened i bs).mark r = w.mark r := by
  rw [World.mark, World.mark, w.opened_of_ne h]

namespace Frames

variable (h : Frames R w s s')

include h

theorem path_eq (r : Ref .frames) : s'.path r = s.path r := by
  rw [Store.path, Store.path, h.frame]

theorem ancestor (r : Ref .frames) (d : Nat) : s'.ancestor r d = s.ancestor r d := by
  rw [Store.ancestor, Store.ancestor, h.path_eq]

/-- The mark of the frame that a depth leads to. -/
theorem mark_ancestor {r : Ref .frames} {bs : List Bool} (hr : w r.index = some bs) (d : Nat) :
    w.mark (s.ancestor r d) = markAt bs d := by
  unfold Store.ancestor markAt
  rw [← (h.path r bs hr).2, List.getElem?_map]
  cases (s.path r)[d]? with
  | some found => rfl
  | none =>
    have hlast : ∃ last, (s.path r).getLast? = some last :=
      ⟨_, List.getLast?_eq_some_getLast (List.cons_ne_nil r _)⟩
    obtain ⟨last, hlast⟩ := hlast
    simp [List.getLastD_eq_getLast?, List.getLast?_map, hlast]

theorem mark_globals : w.mark Store.globals = false := by
  rw [World.mark, h.globals]
  rfl

/-- Nothing is renamed among the globals, and nothing is around them. -/
theorem frame_globals : s'.frame Store.globals = s.frame Store.globals := by
  rw [h.frame, h.mark_globals, respell_false]

theorem path_globals : s.path Store.globals = [Store.globals] := by
  obtain ⟨-, hmarks⟩ := h.path _ _ h.globals
  have hlength := congrArg List.length hmarks
  simp only [Store.path, List.map_cons, List.length_cons, List.length_map, List.length_nil]
    at hlength
  rw [Store.path, List.length_eq_zero_iff.mp (Nat.succ.inj hlength)]

theorem lookup?_globals (name : String) :
    s'.lookup? Store.globals name = s.lookup? Store.globals name := by
  simp only [Store.lookup?, h.path_eq, h.path_globals, List.findSome?_cons, h.frame_globals,
    List.findSome?_nil]

theorem owner?_globals (name : String) :
    s'.owner? Store.globals name = s.owner? Store.globals name := by
  simp only [Store.owner?, h.path_eq, h.path_globals, List.find?_cons, Store.bindsAt,
    h.frame_globals, List.find?_nil]

theorem lt_size {r : Ref .frames} {bs : List Bool} (hr : w r.index = some bs) :
    r.index < s.frames.size := by
  refine Nat.lt_of_not_le fun hle => ?_
  rw [h.unknown _ hle] at hr
  cases hr

/-- What a name is bound to in a frame, it is bound to after both have been renamed. -/
theorem find? (r : Ref .frames) (name : String) :
    (s'.frame r).bindings.find? (R.spell (w.mark r) name) = (s.frame r).bindings.find? name := by
  rw [h.frame]
  exact R.find?_respell _ _ name

theorem bindsAt (r : Ref .frames) (name : String) :
    s'.bindsAt (R.spell (w.mark r) name) r = s.bindsAt name r := by
  rw [Store.bindsAt, Store.bindsAt, Bindings.binds, Bindings.binds, h.find?]

theorem congr {t t' : Store} (ht : t.frames = s.frames) (ht' : t'.frames = s'.frames) :
    Frames R w t t' := by
  have hframe : ∀ r, t.frame r = s.frame r := fun r => by rw [Store.frame, Store.frame, ht]
  have hframe' : ∀ r, t'.frame r = s'.frame r := fun r => by rw [Store.frame, Store.frame, ht']
  refine ⟨by rw [ht, ht', h.size], fun r => ?_, by rw [ht]; exact h.unknown, fun r bs hr => ?_,
    h.globals⟩
  · rw [hframe, hframe', h.frame]
  · rw [ht, Store.path, hframe]
    exact h.path r bs hr

/-- A name is bound in a frame, and by its mark in the other one. -/
theorem define (r : Ref .frames) (name : String) (v : Value) :
    Frames R w (s.define r name v) (s'.define r (R.spell (w.mark r) name) v) := by
  have hpath : ∀ q, (s.define r name v).path q = s.path q := fun q => by
    rw [Store.path, Store.path, Store.outer_define]
  refine ⟨by rw [Store.size_define, Store.size_define, h.size], fun q => ?_, ?_, fun q bs hq => ?_,
    h.globals⟩
  · have hq := h.frame q
    simp only [Store.define, Store.frame, Array.getD_eq_getD_getElem?, Array.getElem?_modify]
      at hq ⊢
    by_cases hrq : r.index = q.index
    · have hr : r = q := congrArg Ref.mk hrq
      subst hr
      simp only [if_true]
      have hsize := h.size
      cases hold : s.frames[r.index]? with
      | none =>
        have hold' : s'.frames[r.index]? = none := by
          simp only [Array.getElem?_eq_none_iff] at hold ⊢
          omega
        simpa [hold, hold'] using hq
      | some f =>
        obtain ⟨hlt, -⟩ := Array.getElem?_eq_some_iff.mp hold
        have hold' : s'.frames[r.index]? = some s'.frames[r.index] :=
          Array.getElem?_eq_getElem (by omega)
        simp only [hold, hold', Option.getD_some] at hq
        simp only [hold', Option.map_some, Option.getD_some, hq, insert_respell]
    · simpa [hrq] using hq
  · rw [Store.size_define]
    exact h.unknown
  · rw [Store.size_define, hpath]
    exact h.path q bs hq

/-- The marks along a path of old frames are still those that they were. -/
theorem path_opened {q : Ref .frames} {cs : List Bool} (hq : w q.index = some cs)
    (around : Ref .frames) (bs : List Bool) (x : Bindings Value) :
    (∀ p ∈ s.path q, p.index < (s.addFrame around x).2.frames.size) ∧
      (s.path q).map (w.opened s.frames.size bs).mark = cs := by
  obtain ⟨hlt, hcs⟩ := h.path q cs hq
  refine ⟨fun p hp => ?_, ?_⟩
  · rw [Store.size_addFrame]
    exact Nat.lt_succ_of_lt (hlt p hp)
  · rw [← hcs]
    exact List.map_congr_left fun p hp => w.mark_opened_of_ne (Nat.ne_of_lt (hlt p hp)) bs

/-- The frames behind a new one are the same but for the names that are exchanged. -/
theorem frame_opened (r : Ref .frames) (b : Bool) (bs : List Bool) (x : Bindings Value)
    (q : Ref .frames) :
    (s'.addFrame r (R.respell b x)).2.frame q = { (s.addFrame r x).2.frame q with
      bindings := R.respell ((w.opened s.frames.size (b :: bs)).mark q)
        ((s.addFrame r x).2.frame q).bindings } := by
  rcases Nat.lt_trichotomy q.index s.frames.size with hlt | hself | hgt
  · have hlt' : q.index < s'.frames.size := h.size ▸ hlt
    rw [Store.frame_addFrame hlt, Store.frame_addFrame hlt', w.mark_opened_of_ne (Nat.ne_of_lt hlt),
      h.frame]
  · have hq : q = (s.addFrame r x).1 := congrArg Ref.mk hself
    have hq' : q = (s'.addFrame r (R.respell b x)).1 := congrArg Ref.mk (hself.trans h.size.symm)
    rw [w.mark_opened_self hself]
    conv_lhs => rw [hq', Store.frame_addFrame_self, h.path_eq]
    rw [hq, Store.frame_addFrame_self]
  · -- neither store has such a frame
    have hnone : (s.addFrame r x).2.frames[q.index]? = none := by
      rw [Array.getElem?_eq_none_iff, Store.size_addFrame]
      omega
    have hnone' : (s'.addFrame r (R.respell b x)).2.frames[q.index]? = none := by
      rw [Array.getElem?_eq_none_iff, Store.size_addFrame, h.size]
      omega
    simp only [Store.frame, Array.getD_eq_getD_getElem?, hnone, hnone', Option.getD_none]
    rfl

/-- A frame is opened in both stores, for a scope with any mark. -/
theorem addFrame {r : Ref .frames} {bs : List Bool} (hr : w r.index = some bs) (b : Bool)
    (x : Bindings Value) :
    Frames R (w.opened s.frames.size (b :: bs)) (s.addFrame r x).2
      (s'.addFrame r (R.respell b x)).2 := by
  refine ⟨?_, h.frame_opened r b bs x, fun i hi => ?_, fun q cs hq => ?_, ?_⟩
  · rw [Store.size_addFrame, Store.size_addFrame, h.size]
  · rw [Store.size_addFrame] at hi
    exact (w.opened_of_ne (by omega) _).trans (h.unknown i (by omega))
  · by_cases hself : q.index = s.frames.size
    · rw [hself, w.opened_self] at hq
      obtain rfl := Option.some.inj hq
      have hpath : (s.addFrame r x).2.path q = q :: s.path r := by
        have hq : q = (s.addFrame r x).1 := congrArg Ref.mk hself
        rw [hq, Store.path, Store.frame_addFrame_self]
      obtain ⟨hlt, hcs⟩ := h.path_opened hr r (b :: bs) x
      rw [hpath, List.map_cons, w.mark_opened_self hself, hcs]
      refine ⟨List.forall_mem_cons.mpr ⟨?_, hlt⟩, rfl⟩
      rw [Store.size_addFrame]
      omega
    · rw [w.opened_of_ne hself] at hq
      have hpath : (s.addFrame r x).2.path q = s.path q := by
        rw [Store.path, Store.path, Store.frame_addFrame (h.lt_size hq)]
      rw [hpath]
      exact h.path_opened hq r _ x
  · exact (w.opened_of_ne (Nat.ne_of_lt (h.lt_size h.globals)) _).trans h.globals

theorem le_opened (bs : List Bool) : w.Le (w.opened s.frames.size bs) := by
  intro i cs hi
  refine (w.opened_of_ne (fun heq => ?_) bs).trans hi
  rw [heq, h.unknown _ (Nat.le_refl _)] at hi
  cases hi

end Frames

/-- The same failures, but for the name of a variable that is missing and the token that it is
blamed on. -/
inductive Fault (R : Renaming) : Token → Failure → Token → Failure → Prop
  | same (t : Token) (failure : Failure) : Fault R t failure t failure
  | missing {t : Token} (h : t.lexeme = R.old) :
    Fault R t (.undefinedVariable R.old) { t with lexeme := R.new } (.undefinedVariable R.new)

theorem fault_missing (n : Token) (mark : Bool) (h : mark = true → n.lexeme ≠ R.new) :
    Fault R n (.undefinedVariable n.lexeme) (R.spelled mark n)
      (.undefinedVariable (R.spelled mark n).lexeme) := by
  cases mark with
  | false => exact .same n _
  | true =>
    unfold spelled
    rcases R.spell_cases (h rfl) true with hsame | ⟨-, hold, hnew⟩
    · rw [hsame]
      exact .same n _
    · rw [hnew, hold]
      exact .missing hold

variable {T : Depths} {m m' : Machine} {bs : List Bool}

/-- The depths of both machines are those in `T`. -/
def DepthsAre (T T₁ T₂ : Depths) : Prop := (∀ i : Nat, T₁[i]? = T[i]?) ∧ ∀ i : Nat, T₂[i]? = T[i]?

section Occurrences

variable (h : Frames R w m.store m'.store) (hm : w m.current.index = some bs)
  (hT : DepthsAre T m.depths m'.depths) (hcurrent : m'.current = m.current) (i : Nat)
  (name : String)

include h hm hT

/-- The frame that binds what an occurrence means has the mark that the occurrence is renamed by. -/
theorem mark_of_owner? {r : Ref .frames} (hr : m.owner? i name = some r) :
    w.mark r = markOf T bs i := by
  unfold Machine.owner? at hr
  unfold markOf
  rw [hT.1] at hr
  cases hd : T[i]? with
  | none =>
    simp only [hd, Store.owner?, h.path_globals] at hr
    rw [List.mem_singleton.mp (List.mem_of_find?_eq_some hr)]
    exact h.mark_globals
  | some d =>
    simp only [hd, Store.ownerAt?] at hr
    split at hr
    · rw [← Option.some.inj hr]
      exact h.mark_ancestor hm d
    · cases hr

include hcurrent

/-- An occurrence has the value that it had under its old name. -/
theorem valueOf?_spell :
    m'.valueOf? i (R.spell (markOf T bs i) name) = m.valueOf? i name := by
  unfold Machine.valueOf? markOf
  rw [hT.1, hT.2]
  cases T[i]? with
  | none => exact h.lookup?_globals name
  | some d =>
    simp only [Store.lookupAt?, hcurrent, h.ancestor, ← h.mark_ancestor hm d, h.find?]

theorem owner?_spell : m'.owner? i (R.spell (markOf T bs i) name) = m.owner? i name := by
  unfold Machine.owner? markOf
  rw [hT.1, hT.2]
  cases T[i]? with
  | none => exact h.owner?_globals name
  | some d =>
    simp only [Store.ownerAt?, hcurrent, h.ancestor, ← h.mark_ancestor hm d, h.bindsAt]

end Occurrences

/-- The scheme of programs that are renamed in scopes with a mark. The name of the receiver is none
of the two. -/
def scheme (R : Renaming) (T : Depths) (hself : R.Spares selfName) :
    Scheme (R.likeness T) where
  World := World
  le := World.Le
  Frames := Frames R
  Marked w r r' bs := r' = r ∧ w r.index = some bs
  Bound mark x x' := x' = R.respell mark x
  Depths := DepthsAre T
  Fault := Fault R
  patient := False
  refl _ _ _ h := h
  trans h h' i bs hi := h' i bs (h i bs hi)
  marked_mono h hw := ⟨h.1, hw _ _ h.2⟩
  kind h := congrArg Token.kind h
  lexeme h := congrArg Token.lexeme h
  keyword h := congrArg Token.kind h
  named h := congrArg Token.lexeme h.1
  fault h failure := h ▸ .same _ failure
  noReceiver h := h ▸ .same _ _
  missing h := h.2.1 ▸ fault_missing _ _ h.2.2
  congr h ht ht' := h.congr ht ht'
  bound_nil := R.respell_nil
  bound_self v := by rw [respell_false]
  bound_insert hx hn v := by
    rw [hx, hn]
    exact R.insert_respell _ _ _ v
  enter {w s s' r r' bs mark x x'} h hmarked hx := by
    obtain ⟨heq, hr⟩ := hmarked
    rw [heq]
    refine ⟨w.opened s.frames.size (mark :: bs), h.le_opened _, ?_, congrArg Ref.mk h.size,
      w.opened_self _ _⟩
    rw [hx]
    exact h.addFrame hr mark x
  define {w s s' r r' bs n n'} h hmarked hn v := by
    obtain ⟨heq, hr⟩ := hmarked
    rw [heq]
    have hmark : w.mark r = innermost bs := by rw [World.mark, hr, Option.getD_some]
    rw [hn]
    exact hmark ▸ h.define r n.lexeme v
  define_named {w s s' r r' bs name} h hmarked hname v := by
    obtain ⟨heq, hr⟩ := hmarked
    rw [heq]
    have hmark : w.mark r = innermost bs := by rw [World.mark, hr, Option.getD_some]
    have hspell : R.spell (w.mark r) name = name := by
      rw [hmark]
      cases hinnermost : innermost bs with
      | false => rfl
      | true =>
        rw [hinnermost] at hname
        obtain ⟨n, n', ⟨-, hne⟩, rfl⟩ := hname.resolve_left (fun h : true = false => by cases h)
        exact R.spell_of_ne (hne rfl).1 (hne rfl).2 _
    have hdefine := h.define r name v
    rwa [hspell] at hdefine
  receiver {w s s' r r' bs} h hmarked := by
    obtain ⟨heq, hr⟩ := hmarked
    rw [heq]
    have hspell := hself.spell (w.mark (s.ancestor r 0))
    have hfind := h.find? (s.ancestor r 0) selfName
    rw [hspell] at hfind
    rw [Store.lookupAt?, Store.lookupAt?, h.ancestor, hfind]
  read {w bs i n i' n' m m'} hn hm h hT := by
    obtain ⟨rfl, rfl, -⟩ := hn
    exact valueOf?_spell h hm.2 hT hm.1 _ n.lexeme
  assign {w bs i n i' n' m m'} hn hm h hT := by
    obtain ⟨rfl, rfl, -⟩ := hn
    have howner : m'.owner? i' (R.spelled (markOf T bs i') n).lexeme = m.owner? i' n.lexeme :=
      owner?_spell h hm.2 hT hm.1 _ n.lexeme
    rw [howner]
    cases hr : m.owner? i' n.lexeme with
    | none => exact .none
    | some r =>
      refine .some fun v => ?_
      have hdefine := h.define r n.lexeme v
      rwa [mark_of_owner? h hm.2 hT _ _ hr] at hdefine

end Renaming

end Roteiro
