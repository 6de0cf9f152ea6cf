import Roteiro.Proofs.Machine.Likeness

/-!
# Programs with the same names

The plainest scheme is the one in which no name is spelled differently: the frames of the two
machines are the same, whatever marks their scopes have, and there is nothing to be known of them.
What is left open is which tables have the same depths for occurrences that correspond, and which
failures correspond.

* `Likeness.Spelled`: all names are spelled the same, and only keywords are not.
* `Likeness.Spelled.scheme`: under such a likeness, frames that are the same stay so.
-/

namespace Roteiro

/-- Nothing that a run looks at is different but the numbers of occurrences. -/
structure Likeness.Spelled (L : Likeness) : Prop where
  kind : ∀ {t t'}, L.token t t' → t'.kind = t.kind
  lexeme : ∀ {t t'}, L.token t t' → t'.lexeme = t.lexeme
  keyword : ∀ {t t'}, L.keyword t t' → t'.kind = t.kind
  occurrence : ∀ {bs i n i' n'}, L.occurrence bs i n i' n' → n'.lexeme = n.lexeme
  binder : ∀ {b n n'}, L.binder b n n' → n'.lexeme = n.lexeme
  named : ∀ {b n n'}, L.named b n n' → n'.lexeme = n.lexeme

/-- Which failures correspond in two runs of programs with the same names. -/
structure Likeness.Faults (L : Likeness) (Fault : Token → Failure → Token → Failure → Prop) :
    Prop where
  token : ∀ {t t'}, L.token t t' → ∀ failure, Fault t failure t' failure
  noReceiver : ∀ {t t'}, L.token t t' →
    Fault ⟨.selfKw, selfName, t.line⟩ (.undefinedVariable selfName) ⟨.selfKw, selfName, t'.line⟩
      (.undefinedVariable selfName)
  missing : ∀ {bs i n i' n'}, L.occurrence bs i n i' n' →
    Fault n (.undefinedVariable n.lexeme) n' (.undefinedVariable n'.lexeme)

section Frames

variable {s s' : Store} (h : s'.frames = s.frames)

include h

theorem Store.frame_congr (r : Ref .frames) : s'.frame r = s.frame r := by
  rw [Store.frame, Store.frame, h]

theorem Store.path_congr (r : Ref .frames) : s'.path r = s.path r := by
  rw [Store.path, Store.path, Store.frame_congr h]

theorem Store.bindsAt_congr (name : String) : s'.bindsAt name = s.bindsAt name := by
  funext r
  rw [Store.bindsAt, Store.bindsAt, Store.frame_congr h]

theorem Store.ancestor_congr (r : Ref .frames) (d : Nat) : s'.ancestor r d = s.ancestor r d := by
  rw [Store.ancestor, Store.ancestor, Store.path_congr h]

theorem Store.lookupAt?_congr (r : Ref .frames) (d : Nat) (name : String) :
    s'.lookupAt? r d name = s.lookupAt? r d name := by
  rw [Store.lookupAt?, Store.lookupAt?, Store.ancestor_congr h, Store.frame_congr h]

theorem Store.lookup?_congr (r : Ref .frames) (name : String) :
    s'.lookup? r name = s.lookup? r name := by
  simp only [Store.lookup?, Store.path_congr h, Store.frame_congr h]

theorem Store.owner?_congr (r : Ref .frames) (name : String) :
    s'.owner? r name = s.owner? r name := by
  rw [Store.owner?, Store.owner?, Store.path_congr h, Store.bindsAt_congr h]

theorem Store.ownerAt?_congr (r : Ref .frames) (d : Nat) (name : String) :
    s'.ownerAt? r d name = s.ownerAt? r d name := by
  simp only [Store.ownerAt?, Store.ancestor_congr h, Store.bindsAt_congr h]

theorem Store.define_congr (r : Ref .frames) (name : String) (v : Value) :
    (s'.define r name v).frames = (s.define r name v).frames := by
  simp only [Store.define, h]

theorem Store.addFrame_congr (r : Ref .frames) (x : Bindings Value) :
    (s'.addFrame r x).2.frames = (s.addFrame r x).2.frames := by
  simp only [Store.addFrame, h, Store.frame_congr h]

end Frames

variable {L : Likeness}

/-- Under a likeness that keeps all names, frames that are the same stay so. -/
def Likeness.Spelled.scheme (h : L.Spelled) (Alike : Depths → Depths → Prop)
    (hdepth : ∀ {bs i n i' n' T T'}, L.occurrence bs i n i' n' → Alike T T' → T'[i']? = T[i]?)
    {Fault : Token → Failure → Token → Failure → Prop} (hfaults : L.Faults Fault) : Scheme L where
  World := Unit
  le _ _ := True
  Frames _ s s' := s'.frames = s.frames
  Marked _ r r' _ := r' = r
  Bound _ x x' := x' = x
  Depths := Alike
  Fault := Fault
  patient := False
  refl _ := trivial
  trans _ _ := trivial
  marked_mono h _ := h
  kind := h.kind
  lexeme := h.lexeme
  keyword := h.keyword
  named := h.named
  fault := hfaults.token
  noReceiver := hfaults.noReceiver
  missing := hfaults.missing
  congr hframes ht ht' := (ht'.trans hframes).trans ht.symm
  bound_nil _ := rfl
  bound_self _ := rfl
  bound_insert hx hn v := by rw [hx, h.binder hn]
  enter {w s s' r r' bs b x x'} hframes hr hx := by
    refine ⟨(), trivial, ?_, congrArg Ref.mk (congrArg Array.size hframes)⟩
    rw [hx, hr]
    exact Store.addFrame_congr hframes r x
  define {w s s' r r' bs n n'} hframes hr hn v := by
    rw [h.binder hn, hr]
    exact Store.define_congr hframes r _ v
  define_named hframes hr _ v := by
    rw [hr]
    exact Store.define_congr hframes _ _ v
  receiver hframes hr := by
    rw [hr]
    exact Store.lookupAt?_congr hframes _ 0 selfName
  read hn hcurrent hframes hT := by
    unfold Machine.valueOf?
    rw [hdepth hn hT, hcurrent, h.occurrence hn]
    simp only [Store.lookupAt?_congr hframes, Store.lookup?_congr hframes]
  assign {w bs i n i' n' m m'} hn hcurrent hframes hT := by
    have howner : m'.owner? i' n'.lexeme = m.owner? i n.lexeme := by
      unfold Machine.owner?
      rw [hdepth hn hT, hcurrent, h.occurrence hn]
      simp only [Store.ownerAt?_congr hframes, Store.owner?_congr hframes]
    rw [howner, h.occurrence hn]
    cases m.owner? i n.lexeme with
    | none => exact .none
    | some r => exact .some fun v => Store.define_congr hframes r _ v

end Roteiro
