import Roteiro.Proofs.Machine.Spelled
import Roteiro.Proofs.Scope.Twins

/-!
# Running twins

A running program does not see the lines of its tokens, except that a failure is blamed on a token;
and the numbers of its occurrences only lead to their depths. So programs that are twins, with
tables that have the same depths under corresponding numbers, do the same: they write and read the
same, come to the same values and end in the same way, and what they leave in the store are twins
again. Twins are of one shape and have the same names, so this is a case of `execProgram_like`.

* `Store.Twin.eq`: where the numbers are the same, stores that are twins are.
* `execProgram_twins`: programs that are twins are run in parallel.
-/

namespace Roteiro

open Scope

variable {ρ : Renumbering}

/-! ### Stores and machines -/

/-- Functions that differ in their code only, which are twins. -/
structure Closure.Twin (ρ : Renumbering) (c c' : Closure) : Prop where
  decl : c.decl.Twin ρ c'.decl
  frame : c'.frame = c.frame
  isInitializer : c'.isInitializer = c.isInitializer

/-- The methods of one class and those of another. -/
def methodsTwin (ρ : Renumbering) (b b' : Bindings Closure) : Prop :=
  List.Forall₂ (fun p p' => p'.1 = p.1 ∧ p.2.Twin ρ p'.2) b b'

structure ClassInfo.Twin (ρ : Renumbering) (k k' : ClassInfo) : Prop where
  name : k'.name = k.name
  methods : methodsTwin ρ k.methods k'.methods

/-- Stores that differ in the code of functions and methods only. -/
structure Store.Twin (ρ : Renumbering) (s s' : Store) : Prop where
  frames : s'.frames = s.frames
  arrays : s'.arrays = s.arrays
  instances : s'.instances = s.instances
  functions_size : s'.functions.size = s.functions.size
  functions : ∀ f, (s.closure f).Twin ρ (s'.closure f)
  classes_size : s'.classes.size = s.classes.size
  classes : ∀ k, (s.classInfo k).Twin ρ (s'.classInfo k)

structure Machine.Twin (ρ : Renumbering) (m m' : Machine) : Prop where
  store : m.store.Twin ρ m'.store
  current : m'.current = m.current
  depths : m.depths.Twin ρ m'.depths
  host : m'.host = m.host

/-- Steps that stopped for the same reason, at tokens that differ in their lines only. -/
inductive Halt.Twin (ρ : Renumbering) : Halt → Halt → Prop
  | failed {t t'} (ht : t.Twin ρ t') (failure : Failure) :
    Halt.Twin ρ (.failed ⟨t, failure⟩) (.failed ⟨t', failure⟩)
  | outOfFuel : Halt.Twin ρ .outOfFuel .outOfFuel

/-! ### Stores in which the numbers are the same -/

theorem Closure.Twin.eq (hρ : ρ.Same) {c c' : Closure} (h : c.Twin ρ c') : c' = c := by
  obtain ⟨decl, frame, isInitializer⟩ := c
  obtain ⟨decl', frame', isInitializer'⟩ := c'
  obtain ⟨hdecl, hframe, hinitializer⟩ := h
  dsimp only at hdecl hframe hinitializer
  rw [FunctionDecl.Twin.eq hρ decl hdecl, hframe, hinitializer]

theorem methodsTwin.eq (hρ : ρ.Same) {b b' : Bindings Closure} (h : methodsTwin ρ b b') :
    b' = b := by
  induction h with
  | nil => rfl
  | cons hp _ ih => rw [ih, Prod.ext hp.1 (hp.2.eq hρ)]

theorem ClassInfo.Twin.eq (hρ : ρ.Same) {k k' : ClassInfo} (h : k.Twin ρ k') : k' = k := by
  obtain ⟨name, methods⟩ := k
  obtain ⟨name', methods'⟩ := k'
  obtain ⟨hname, hmethods⟩ := h
  dsimp only at hname hmethods
  rw [hname, hmethods.eq hρ]

/-- Arrays of which all entries are the same. -/
theorem eq_of_getD {α : Type} [Inhabited α] {xs ys : Array α} (hsize : ys.size = xs.size)
    (h : ∀ i, ys.getD i default = xs.getD i default) : ys = xs := by
  refine Array.ext hsize fun i hi hi' => ?_
  have hentry := h i
  rwa [Array.getD_eq_getD_getElem?, Array.getD_eq_getD_getElem?, Array.getElem?_eq_getElem hi,
    Array.getElem?_eq_getElem hi'] at hentry

theorem Store.Twin.eq (hρ : ρ.Same) {s s' : Store} (h : s.Twin ρ s') : s' = s := by
  have hfunctions : s'.functions = s.functions :=
    eq_of_getD h.functions_size fun i => (h.functions ⟨i⟩).eq hρ
  have hclasses : s'.classes = s.classes :=
    eq_of_getD h.classes_size fun i => (h.classes ⟨i⟩).eq hρ
  obtain ⟨frames, functions, classes, arrays, instances⟩ := s
  obtain ⟨frames', functions', classes', arrays', instances'⟩ := s'
  dsimp only at hfunctions hclasses
  have hframes : frames' = frames := h.frames
  have harrays : arrays' = arrays := h.arrays
  have hinstances : instances' = instances := h.instances
  rw [hframes, hfunctions, hclasses, harrays, hinstances]

/-! ### Twins are alike -/

theorem Renumbering.spelled (ρ : Renumbering) : ρ.likeness.Spelled where
  kind ht := ht.kind
  lexeme ht := ht.lexeme
  keyword ht := ht.kind
  occurrence hn := hn.2.lexeme
  binder hn := hn.lexeme
  named hn := hn.lexeme

theorem Renumbering.faults (ρ : Renumbering) :
    ρ.likeness.Faults fun t failure t' failure' => t.Twin ρ t' ∧ failure' = failure where
  token ht _ := ⟨ht, rfl⟩
  noReceiver ht := ⟨ht.made .selfKw selfName, rfl⟩
  missing hn := ⟨hn.2, by rw [hn.2.lexeme]⟩

/-- The scheme of twins. -/
def Renumbering.scheme (ρ : Renumbering) : Scheme ρ.likeness :=
  ρ.spelled.scheme (Depths.Twin ρ) (fun hn hT => hT hn.1) ρ.faults

section Covers

variable {L : Likeness} {S : Scheme L} {w : S.World}

/-- A frame around which no scope has a mark. -/
def Scheme.Unmarked (S : Scheme L) (w : S.World) (r : Ref .frames) : Prop :=
  ∃ bs, true ∉ bs ∧ S.Marked w r r bs

variable (hL : L.Covers ρ)

include hL

theorem Closure.Twin.like {c c' : Closure} (h : c.Twin ρ c') (hc : S.Unmarked w c.frame) :
    c.Like S w c' := by
  obtain ⟨bs, hbs, hmarked⟩ := hc
  exact ⟨h.isInitializer, false, bs, by rwa [h.frame], FunctionDecl.Twin.like hL _ hbs h.decl⟩

theorem Closure.Twin.likeMethod {c c' : Closure} (h : c.Twin ρ c') (hc : S.Unmarked w c.frame) :
    c.LikeMethod S w c' := by
  obtain ⟨bs, hbs, hmarked⟩ := hc
  exact ⟨h.isInitializer, bs, by rwa [h.frame],
    FunctionDecl.Twin.like hL _ (unmarked_cons hbs) h.decl⟩

theorem methodsTwin.like {b b' : Bindings Closure} (h : methodsTwin ρ b b')
    (hb : ∀ p ∈ b, S.Unmarked w p.2.frame) : methodsLike S w b b' := by
  induction h with
  | nil => exact .nil
  | cons hp _ ih =>
    obtain ⟨hfirst, hothers⟩ := List.forall_mem_cons.mp hb
    exact .cons ⟨hp.1, hp.2.likeMethod hL hfirst⟩ (ih hothers)

/-- Twins of stores are alike, if no scope around their functions and methods has a mark. -/
theorem Store.Twin.like {s s' : Store} (h : s.Twin ρ s') (hframes : S.Frames w s s')
    (hfunctions : ∀ f, S.Unmarked w (s.closure f).frame)
    (hmethods : ∀ k, ∀ p ∈ (s.classInfo k).methods, S.Unmarked w p.2.frame) : s.Like S w s' where
  frames := hframes
  arrays := h.arrays
  instances := h.instances
  functions_size := h.functions_size
  functions f := (h.functions f).like hL (hfunctions f)
  classes_size := h.classes_size
  classes k := ⟨(h.classes k).name, (h.classes k).methods.like hL (hmethods k)⟩

end Covers

theorem Renumbering.unmarked (ρ : Renumbering) (r : Ref .frames) : ρ.scheme.Unmarked () r :=
  ⟨[], nofun, rfl⟩

theorem Machine.Twin.like {m m' : Machine} (h : m.Twin ρ m') (bs : List Bool) :
    m.Like ρ.scheme () bs m' :=
  ⟨h.store.like ρ.covers h.store.frames (fun _ => ρ.unmarked _) (fun _ _ _ => ρ.unmarked _),
    h.current, h.depths, h.host⟩

theorem Closure.Like.twin {c c' : Closure} (h : c.Like ρ.scheme () c') : c.Twin ρ c' := by
  obtain ⟨_, _, hframe, hdecl⟩ := h.decl
  exact ⟨FunctionDecl.Like.twin ρ.coveredBy _ hdecl, hframe, h.isInitializer⟩

theorem Closure.LikeMethod.twin {c c' : Closure} (h : c.LikeMethod ρ.scheme () c') :
    c.Twin ρ c' := by
  obtain ⟨_, hframe, hdecl⟩ := h.decl
  exact ⟨FunctionDecl.Like.twin ρ.coveredBy _ hdecl, hframe, h.isInitializer⟩

theorem ClassInfo.Like.twin {k k' : ClassInfo} (h : k.Like ρ.scheme () k') : k.Twin ρ k' :=
  ⟨h.name, h.methods.imp fun _ _ hp => ⟨hp.1, hp.2.twin⟩⟩

theorem Machine.Like.twin {m m' : Machine} {bs : List Bool} (h : m.Like ρ.scheme () bs m') :
    m.Twin ρ m' :=
  ⟨⟨h.store.frames, h.store.arrays, h.store.instances, h.store.functions_size,
    fun f => (h.store.functions f).twin, h.store.classes_size, fun k => (h.store.classes k).twin⟩,
    h.marked, h.depths, h.host⟩

theorem Halt.Like.twin {e e' : Halt} (h : e.Like ρ.scheme e') : e.Twin ρ e' := by
  cases h with
  | @failed e e' hfault =>
    obtain ⟨token, failure⟩ := e
    obtain ⟨token', failure'⟩ := e'
    obtain ⟨ht, rfl⟩ : token.Twin ρ token' ∧ failure' = failure := hfault
    exact .failed ht failure'
  | outOfFuel => exact .outOfFuel

/-! ### Running -/

namespace Machine

/-- Two runs have ended in the same way. -/
inductive EndedTwins (ρ : Renumbering) :
    EStateM.Result Halt Machine Unit → EStateM.Result Halt Machine Unit → Prop
  | ok {m m' : Machine} (hm : m.Twin ρ m') : EndedTwins ρ (.ok () m) (.ok () m')
  | error {e e' : Halt} {m m' : Machine} (he : e.Twin ρ e') (hm : m.Twin ρ m') :
    EndedTwins ρ (.error e m) (.error e' m')

/-- **Programs that are twins are run in parallel.** -/
theorem execProgram_twins (fuel : Nat) {program program' : List Stmt}
    (h : List.Forall₂ (Stmt.Twin ρ) program program') {m m' : Machine} (hm : m.Twin ρ m') :
    EndedTwins ρ (execProgram fuel program m) (execProgram fuel program' m') := by
  have hlike : StmtsLike ρ.likeness [] program program' :=
    likeStmts_of_twins ρ.covers program nofun h
  have hended := execProgram_like (S := ρ.scheme) (w := ()) fuel hlike () m m' trivial (hm.like [])
  generalize execProgram fuel program m = result at hended ⊢
  generalize execProgram fuel program' m' = result' at hended ⊢
  cases hended with
  | ok _ _ hm => exact .ok hm.twin
  | error _ he hm => exact .error he.twin hm.twin
  | quit he => exact he.1.elim

end Machine

end Roteiro
