import Roteiro.Proofs.Machine.Renaming
import Roteiro.Proofs.Scope.Renaming
import Roteiro.Proofs.Session.Lines

/-!
# Renamed programs in a session

A session may run a program or the same program with other local names. Nothing is renamed in what
it has in store: no frame that is there stands for a scope with a mark. From there on the two runs
are alike, and they differ in the names that their functions quote when a variable is missing.

* `Since.accepts_renamed`: the program is accepted under its other names, with the same depths.
* `Since.execute_renamed`: it does the same, and ends in the same way.
-/

namespace Roteiro

open Scope Machine

variable {R : Renaming} {T : Depths}

/-! ### Stores in which nothing is renamed -/

/-- A path that fits some scopes leads through frames that are there. -/
theorem Machine.Fits.forall_lt_size {V : Moment → Prop} {s : Store} {path : List (Ref .frames)}
    {Γ : List Layer} (h : Fits V s path Γ) : ∀ r ∈ path, r.index < s.frames.size := by
  induction h with
  | globals h => simpa using h
  | inside hlt _ _ _ _ _ ih => exact List.forall_mem_cons.mpr ⟨hlt, ih⟩

namespace Renaming

/-- The frames of a store, none of which has a mark. -/
def World.plain (s : Store) : World := fun i =>
  if ∀ r ∈ s.path ⟨i⟩, r.index < s.frames.size then some ((s.path ⟨i⟩).map fun _ => false) else none

theorem World.mark_plain (s : Store) (r : Ref .frames) : (World.plain s).mark r = false := by
  unfold World.mark World.plain
  split <;> rfl

theorem World.plain_of_fits {V : Moment → Prop} {s : Store} {r : Ref .frames} {Γ : List Layer}
    (h : Fits V s (s.path r) Γ) :
    World.plain s r.index = some ((s.path r).map fun _ => false) :=
  if_pos h.forall_lt_size

theorem frames_plain {V : Moment → Prop} {s : Store} (h : Fits V s (s.path Store.globals) []) :
    Frames R (World.plain s) s s where
  size := rfl
  frame r := by rw [World.mark_plain, respell_false]
  unknown i hi := if_neg fun hlt => Nat.not_lt.mpr hi (hlt ⟨i⟩ List.mem_cons_self)
  path r bs hr := by
    unfold World.plain at hr
    split at hr
    · next hlt =>
      refine ⟨hlt, ?_⟩
      rw [← Option.some.inj hr]
      exact List.map_congr_left fun q _ => World.mark_plain s q
    · cases hr
  globals := by
    rw [World.plain_of_fits h]
    generalize s.path Store.globals = path at h
    cases h with
    | globals => rfl

/-- A frame that code is kept for has no marks around it. -/
theorem unmarked_of_fits {V : Moment → Prop} {s : Store} {r : Ref .frames} {Γ : List Layer}
    (hself : R.Spares selfName) (h : Fits V s (s.path r) Γ) :
    (scheme R T hself).Unmarked (World.plain s) r := by
  refine ⟨(s.path r).map fun _ => false, ?_, rfl, World.plain_of_fits h⟩
  simp

end Renaming

namespace Session

variable {s s' : Session} {past : List Played} {source : String} {program program' : List Stmt}

/-- What a session has in store is the same whatever is renamed later. -/
theorem Since.like_renamed {host : Host} (h : Since host s past) (hself : R.Spares selfName) :
    s.machine.store.Like (Renaming.scheme R T hself) (Renaming.World.plain s.machine.store)
      s.machine.store := by
  have hhoused := h.settled.housed
  refine h.twin_same.like (Renaming.covers_same R T) (Renaming.frames_plain hhoused.globals)
    (fun f => ?_) fun k p hp => ?_
  · obtain ⟨Γ, -, hfits⟩ := hhoused.closure f
    exact Renaming.unmarked_of_fits hself hfits
  · obtain ⟨Γ, -, hfits⟩ := hhoused.method_of_mem hp
    exact Renaming.unmarked_of_fits hself hfits

/-- The table has the depths of an accepted program. -/
theorem Since.hasDepths {host : Host} (h : Since host s past)
    (haccepts : s.Accepts source program s') :
    placedStmts (HasDepths s'.machine.depths) program [] :=
  placedStmts_mono (fun _ _ _ hrecorded => hrecorded.depth) program
    (h.settled.placed haccepts 0)

/-- **A renamed program is accepted with the same depths.** It only has to be what is read from some
source. -/
theorem Since.accepts_renamed {host : Host} (h : Since host s past)
    (haccepts : s.Accepts source program s') (hself : R.Spares selfName)
    (hlike : StmtsLike (R.freshLikeness s'.machine.depths) [false] program program')
    {source' : String} (hscanned : (Token.tokenize source').2 = [])
    (hparsed : (Parser.parseProgram (Token.tokenize source').1 s.nextId).tree? = some program')
    (hnext : (Parser.parseProgram (Token.tokenize source').1 s.nextId).nextId = s'.nextId) :
    s.Accepts source' program' s' := by
  obtain ⟨hdepths, haccepted⟩ :=
    resolve_renamed hself hlike (h.hasDepths haccepts) s.machine.depths
  refine ⟨hscanned, hparsed, haccepted.trans haccepts.accepted, ?_⟩
  have hready := haccepts.ready
  rw [hdepths, hnext]
  rw [hready]

/-- How a program and the renamed program end. -/
inductive EndedRenamed (old new : String) : Ending → Ending → Prop
  | same (ending : Ending) : EndedRenamed old new ending ending
  /-- The variable is missing, under either name. -/
  | missing {t : Token} (h : t.lexeme = old) :
    EndedRenamed old new (.failed ⟨t, .undefinedVariable old⟩)
      (.failed ⟨{ t with lexeme := new }, .undefinedVariable new⟩)

/-- **A renamed program does the same.** -/
theorem Since.execute_renamed {host : Host} (h : Since host s past)
    (haccepts : s.Accepts source program s') (hself : R.Spares selfName)
    (hlike : StmtsLike (R.freshLikeness s'.machine.depths) [false] program program') (fuel : Nat) :
    (s'.execute fuel program').1.machine.host = (s'.execute fuel program).1.machine.host ∧
      (s'.execute fuel program').1.nextId = (s'.execute fuel program).1.nextId ∧
      EndedRenamed R.old R.new (s'.execute fuel program).2 (s'.execute fuel program').2 := by
  have hready := haccepts.ready
  have hstore : s'.machine.store = s.machine.store := by rw [hready]
  have hcurrent : s'.machine.current = Store.globals := by
    rw [hready]
    exact h.settled.current
  let S := Renaming.scheme R s'.machine.depths hself
  let w := Renaming.World.plain s'.machine.store
  have hkept : s'.machine.store.Like S w s'.machine.store := by
    simp only [w, hstore]
    exact h.like_renamed hself
  have hmarked : S.Marked w s'.machine.current s'.machine.current [false] := by
    rw [hcurrent]
    exact ⟨rfl, hkept.frames.globals⟩
  have hmachine : s'.machine.Like S w [false] s'.machine :=
    ⟨hkept, hmarked, ⟨fun _ => rfl, fun _ => rfl⟩, rfl⟩
  have hended := execProgram_like (S := S) fuel
    (likeStmts_mono (R.fresh_le s'.machine.depths) program hlike) w _ _ (S.refl w) hmachine
  unfold execute
  generalize execProgram fuel program s'.machine = result at hended ⊢
  generalize execProgram fuel program' s'.machine = result' at hended ⊢
  cases hended with
  | ok _ _ hm => exact ⟨hm.host, rfl, .same _⟩
  | @error _ e e' _ _ _ he hm =>
    cases he with
    | @failed e e' hfault =>
      obtain ⟨t, failure⟩ := e
      obtain ⟨t', failure'⟩ := e'
      refine ⟨hm.host, rfl, ?_⟩
      cases hfault with
      | same => exact .same _
      | missing ht => exact .missing ht
    | outOfFuel => exact ⟨hm.host, rfl, .same _⟩
  | quit he => exact he.1.elim

end Session

end Roteiro
