import Roteiro.Proofs.Machine.Steady
import Roteiro.Proofs.Machine.Sound
import Roteiro.Proofs.Value.Table

/-!
# References stay good

The store only grows: a function or a class in it stays what it is, and an instance stays one of its
class. So a value that leads to something in the store goes on to lead to the same thing.

Every value that a program can get hold of does lead to something in the store. `Store.Closed` says
so of all that the store itself keeps, in frames, arrays and instances.

* `steady_persists`: no action takes anything away.
* `Closed.define` and its companions: what may be put into a closed store.
-/

namespace Roteiro

/-! ### Stores that keep what they have -/

namespace Store

/-- Functions and classes stay what they are, instances stay in their classes, and nothing is taken
away. -/
structure Persists (s s' : Store) : Prop where
  functions : ∀ {i : Nat} {c}, s.functions[i]? = some c → s'.functions[i]? = some c
  classes : ∀ {i : Nat} {k}, s.classes[i]? = some k → s'.classes[i]? = some k
  arrays : s.arrays.size ≤ s'.arrays.size
  instances : ∀ {i : Nat} {x}, s.instances[i]? = some x →
    ∃ x', s'.instances[i]? = some x' ∧ x'.classRef = x.classRef

namespace Persists

variable {s s' s'' : Store}

theorem refl (s : Store) : s.Persists s := ⟨id, id, Nat.le_refl _, fun h => ⟨_, h, rfl⟩⟩

theorem trans (h : s.Persists s') (h' : s'.Persists s'') : s.Persists s'' := by
  refine ⟨h'.functions ∘ h.functions, h'.classes ∘ h.classes, Nat.le_trans h.arrays h'.arrays,
    fun hx => ?_⟩
  obtain ⟨x', hx', hclass⟩ := h.instances hx
  obtain ⟨x'', hx'', hclass'⟩ := h'.instances hx'
  exact ⟨x'', hx'', hclass'.trans hclass⟩

/-- Only frames have changed. -/
theorem of_frames (s : Store) (frames : Array Frame) : s.Persists { s with frames } :=
  ⟨id, id, Nat.le_refl _, fun h => ⟨_, h, rfl⟩⟩

theorem getElem?_push_of_some {α : Type} {xs : Array α} {i : Nat} {x : α} (h : xs[i]? = some x)
    (y : α) : (xs.push y)[i]? = some x := by
  have hlt : i < xs.size := (Array.getElem?_eq_some_iff.mp h).1
  rw [Array.getElem?_push, if_neg (Nat.ne_of_lt hlt), h]

theorem addFunction (s : Store) (c : Closure) : s.Persists (s.addFunction c).2 :=
  ⟨fun h => getElem?_push_of_some h c, id, Nat.le_refl _, fun h => ⟨_, h, rfl⟩⟩

theorem addClass (s : Store) (k : ClassInfo) : s.Persists (s.addClass k).2 :=
  ⟨id, fun h => getElem?_push_of_some h k, Nat.le_refl _, fun h => ⟨_, h, rfl⟩⟩

theorem addArray (s : Store) (t : Table Value) : s.Persists (s.addArray t).2 :=
  ⟨id, id, by simp [Store.addArray], fun h => ⟨_, h, rfl⟩⟩

theorem addInstance (s : Store) (k : Ref .classes) : s.Persists (s.addInstance k).2 :=
  ⟨id, id, Nat.le_refl _, fun h => ⟨_, getElem?_push_of_some h _, rfl⟩⟩

theorem putEntry (s : Store) (a : Ref .arrays) (key : String) (v : Value) :
    s.Persists (s.putEntry a key v) :=
  ⟨id, id, by simp [Store.putEntry], fun h => ⟨_, h, rfl⟩⟩

theorem setField (s : Store) (r : Ref .instances) (name : String) (v : Value) :
    s.Persists (s.setField r name v) := by
  refine ⟨id, id, Nat.le_refl _, fun {i x} h => ?_⟩
  simp only [Store.setField, Array.getElem?_modify, h, Option.map_some]
  split
  · exact ⟨_, rfl, rfl⟩
  · exact ⟨x, rfl, rfl⟩

theorem size_functions (h : s.Persists s') : s.functions.size ≤ s'.functions.size := by
  refine Nat.le_of_not_lt fun hlt => ?_
  have hkept := h.functions (Array.getElem?_eq_getElem hlt)
  rw [Array.getElem?_eq_none (Nat.le_refl _)] at hkept
  cases hkept

theorem size_classes (h : s.Persists s') : s.classes.size ≤ s'.classes.size := by
  refine Nat.le_of_not_lt fun hlt => ?_
  have hkept := h.classes (Array.getElem?_eq_getElem hlt)
  rw [Array.getElem?_eq_none (Nat.le_refl _)] at hkept
  cases hkept

theorem size_instances (h : s.Persists s') : s.instances.size ≤ s'.instances.size := by
  refine Nat.le_of_not_lt fun hlt => ?_
  obtain ⟨x, hkept, -⟩ := h.instances (Array.getElem?_eq_getElem hlt)
  rw [Array.getElem?_eq_none (Nat.le_refl _)] at hkept
  cases hkept

/-- A function that is there stays what it is. -/
theorem closure (h : s.Persists s') {f : Ref .functions} (hf : f.index < s.functions.size) :
    s'.closure f = s.closure f := by
  have hkept := h.functions (Array.getElem?_eq_getElem hf)
  rw [Store.closure, Store.closure, Array.getD_eq_getD_getElem?, Array.getD_eq_getD_getElem?, hkept,
    Array.getElem?_eq_getElem hf]

end Persists

end Store

namespace Machine

/-- **No action takes anything away from the store.** -/
theorem steady_persists : Steady fun m m' => m.store.Persists m'.store where
  refl m := .refl m.store
  trans h h' := h.trans h'
  host m _ := .refl m.store
  define m _ _ _ _ := .of_frames m.store _
  putEntry m a key v := .putEntry m.store a key v
  setField m r name v := .setField m.store r name v
  addArray m _ := .addArray m.store _
  addInstance m k := .addInstance m.store k
  addFrame m _ _ := .of_frames m.store _
  lambda m c _ := .addFunction m.store c
  function m _ _ _ := (Store.Persists.addFunction m.store _).trans (.of_frames _ _)
  classDecl m _ _ _ _ := (Store.Persists.addClass m.store _).trans (.of_frames _ _)
  bound m _ _ _ _ _ _ := (Store.Persists.of_frames m.store _).trans (.addFunction _ _)
  inside m _ _ _ h := (Store.Persists.of_frames m.store _).trans h
  moved m _ := .refl m.store

end Machine

/-! ### Values that lead into the store -/

/-- What the value refers to is in the store. -/
def Value.In (s : Store) : Value → Prop
  | .function f => f.index < s.functions.size
  | .classRef k => k.index < s.classes.size
  | .array a => a.index < s.arrays.size
  | .instanceRef r => r.index < s.instances.size
  | _ => True

theorem Value.In.persists {s s' : Store} {v : Value} (h : v.In s) (hs : s.Persists s') :
    v.In s' := by
  cases v with
  | function => exact Nat.lt_of_lt_of_le h hs.size_functions
  | classRef => exact Nat.lt_of_lt_of_le h hs.size_classes
  | array => exact Nat.lt_of_lt_of_le h hs.arrays
  | instanceRef => exact Nat.lt_of_lt_of_le h hs.size_instances
  | _ => trivial

/-- A value that refers to nothing. -/
theorem Value.in_literal (s : Store) (l : Literal) : (Machine.literal l).In s := by
  cases l <;> trivial

namespace Store

/-- All that is kept in frames, arrays and instances leads into the store. -/
structure Closed (s : Store) : Prop where
  frames : ∀ f ∈ s.frames, ∀ p ∈ f.bindings, p.2.In s
  arrays : ∀ t ∈ s.arrays, ∀ p ∈ t.entries, p.2.In s
  instances : ∀ x ∈ s.instances, x.classRef.index < s.classes.size ∧ ∀ p ∈ x.fields, p.2.In s

variable {s s' : Store}

/-- What is new in a store leads into it. -/
theorem Closed.persists (h : s.Closed) (hs : s.Persists s')
    (hframes : ∀ f ∈ s'.frames, f ∈ s.frames ∨ ∀ p ∈ f.bindings, p.2.In s')
    (harrays : ∀ t ∈ s'.arrays, t ∈ s.arrays ∨ ∀ p ∈ t.entries, p.2.In s')
    (hinstances : ∀ x ∈ s'.instances, x ∈ s.instances ∨
      x.classRef.index < s'.classes.size ∧ ∀ p ∈ x.fields, p.2.In s') : s'.Closed := by
  refine ⟨fun f hf => ?_, fun t ht => ?_, fun x hx => ?_⟩
  · rcases hframes f hf with hf | hf
    · exact fun p hp => (h.frames f hf p hp).persists hs
    · exact hf
  · rcases harrays t ht with ht | ht
    · exact fun p hp => (h.arrays t ht p hp).persists hs
    · exact ht
  · rcases hinstances x hx with hx | hx
    · obtain ⟨hclass, hfields⟩ := h.instances x hx
      exact ⟨Nat.lt_of_lt_of_le hclass hs.size_classes, fun p hp => (hfields p hp).persists hs⟩
    · exact hx

/-- What an array holds after one of its elements was changed. -/
theorem mem_modify {α : Type} {xs : Array α} {i : Nat} {f : α → α} {x : α}
    (h : x ∈ xs.modify i f) : x ∈ xs ∨ ∃ y ∈ xs, x = f y := by
  obtain ⟨j, hj, rfl⟩ := Array.mem_iff_getElem.mp h
  rw [Array.size_modify] at hj
  rw [Array.getElem_modify]
  split
  · exact .inr ⟨_, Array.getElem_mem hj, rfl⟩
  · exact .inl (Array.getElem_mem hj)

theorem closed_initial : initial.Closed := by
  refine ⟨fun f hf p hp => ?_, fun t ht => ?_, fun x hx => ?_⟩
  · have hf : f = ⟨builtinBindings, []⟩ := by simpa [initial] using hf
    subst hf
    obtain ⟨b, -, hp⟩ := List.mem_flatMap.mp hp
    obtain ⟨name, -, rfl⟩ := List.mem_map.mp hp
    trivial
  · simp [initial] at ht
  · simp [initial] at hx

namespace Closed

variable {v : Value}

theorem define (h : s.Closed) (r : Ref .frames) (name : String) (hv : v.In s) :
    (s.define r name v).Closed := by
  refine h.persists (.of_frames s _) (fun f hf => ?_) (fun t ht => .inl ht) fun x hx => .inl hx
  simp only [Store.define] at hf
  rcases mem_modify hf with hf | ⟨f, hf', rfl⟩
  · exact .inl hf
  · refine .inr fun p hp => ?_
    rcases Machine.mem_insert hp with rfl | hp
    · exact hv
    · exact h.frames f hf' p hp

theorem addFrame (h : s.Closed) (around : Ref .frames) {bindings : Bindings Value}
    (hbindings : ∀ p ∈ bindings, p.2.In s) : (s.addFrame around bindings).2.Closed := by
  refine h.persists (.of_frames s _) (fun f hf => ?_) (fun t ht => .inl ht) fun x hx => .inl hx
  rcases Array.mem_push.mp hf with hf | rfl
  · exact .inl hf
  · exact .inr hbindings

theorem putEntry (h : s.Closed) (a : Ref .arrays) (key : String) (hv : v.In s) :
    (s.putEntry a key v).Closed := by
  have hs := Persists.putEntry s a key v
  refine h.persists hs (fun f hf => .inl hf) (fun t ht => ?_) fun x hx => .inl hx
  simp only [Store.putEntry] at ht
  rcases mem_modify ht with ht | ⟨t, ht', rfl⟩
  · exact .inl ht
  · refine .inr fun p hp => ?_
    have hp : p.2 = v ∨ p ∈ t.entries := by
      unfold Table.put at hp
      split at hp
      · rcases Array.mem_or_eq_of_mem_setIfInBounds hp with hp | rfl
        · exact .inr hp
        · exact .inl rfl
      · rcases Array.mem_push.mp hp with hp | rfl
        · exact .inr hp
        · exact .inl rfl
    rcases hp with heq | hp
    · rw [heq]
      exact hv.persists hs
    · exact (h.arrays t ht' p hp).persists hs

theorem setField (h : s.Closed) (r : Ref .instances) (name : String) (hv : v.In s) :
    (s.setField r name v).Closed := by
  have hs := Persists.setField s r name v
  refine h.persists hs (fun f hf => .inl hf) (fun t ht => .inl ht) fun x hx => ?_
  simp only [Store.setField] at hx
  rcases mem_modify hx with hx | ⟨x, hx', rfl⟩
  · exact .inl hx
  · obtain ⟨hclass, hfields⟩ := h.instances x hx'
    refine .inr ⟨hclass, fun p hp => ?_⟩
    rcases Machine.mem_insert hp with rfl | hp
    · exact hv.persists hs
    · exact (hfields p hp).persists hs

theorem mem_ofList {values : List Value} {p : String × Value}
    (h : p ∈ (Table.ofList values).entries) : p.2 ∈ values := by
  rw [← Array.mem_toList_iff, (Table.refines_ofList values).entries] at h
  obtain ⟨i, hi, rfl⟩ := List.mem_mapIdx.mp h
  exact List.getElem_mem hi

theorem addArray (h : s.Closed) {values : List Value} (hvalues : ∀ v ∈ values, v.In s) :
    (s.addArray (.ofList values)).2.Closed := by
  have hs := Persists.addArray s (.ofList values)
  refine h.persists hs (fun f hf => .inl hf) (fun t ht => ?_) fun x hx => .inl hx
  rcases Array.mem_push.mp ht with ht | rfl
  · exact .inl ht
  · exact .inr fun p hp => (hvalues _ (mem_ofList hp)).persists hs

theorem addInstance (h : s.Closed) {k : Ref .classes} (hk : k.index < s.classes.size) :
    (s.addInstance k).2.Closed := by
  refine h.persists (.addInstance s k) (fun f hf => .inl hf) (fun t ht => .inl ht) fun x hx => ?_
  rcases Array.mem_push.mp hx with hx | rfl
  · exact .inl hx
  · exact .inr ⟨hk, nofun⟩

theorem addFunction (h : s.Closed) (c : Closure) : (s.addFunction c).2.Closed :=
  h.persists (.addFunction s c) (fun _ hf => .inl hf) (fun _ ht => .inl ht) fun _ hx => .inl hx

theorem addClass (h : s.Closed) (k : ClassInfo) : (s.addClass k).2.Closed :=
  h.persists (.addClass s k) (fun _ hf => .inl hf) (fun _ ht => .inl ht) fun _ hx => .inl hx

/-- What is found in a frame. -/
theorem binding (h : s.Closed) {r : Ref .frames} {name : String}
    (hv : (s.frame r).bindings.find? name = some v) : v.In s := by
  have hp := Machine.mem_of_find? hv
  unfold Store.frame at hp
  rw [Array.getD_eq_getD_getElem?] at hp
  cases hr : s.frames[r.index]? with
  | none =>
    rw [hr] at hp
    exact absurd hp List.not_mem_nil
  | some f =>
    rw [hr] at hp
    exact h.frames f (Array.mem_of_getElem? hr) _ hp

theorem lookup (h : s.Closed) {r : Ref .frames} {name : String} (hv : s.lookup? r name = some v) :
    v.In s := by
  obtain ⟨f, -, hf⟩ := List.exists_of_findSome?_eq_some hv
  exact h.binding hf

/-- What is found in an instance. -/
theorem field (h : s.Closed) {r : Ref .instances} {name : String}
    (hv : (s.instanceAt r).fields.find? name = some v) : v.In s := by
  have hp := Machine.mem_of_find? hv
  unfold Store.instanceAt at hp
  rw [Array.getD_eq_getD_getElem?] at hp
  cases hr : s.instances[r.index]? with
  | none =>
    rw [hr] at hp
    exact absurd hp List.not_mem_nil
  | some x =>
    rw [hr] at hp
    exact (h.instances x (Array.mem_of_getElem? hr)).2 _ hp

/-- What is found in an array. -/
theorem entry (h : s.Closed) {a : Ref .arrays} {key : String}
    (hv : (s.table a).get? key = some v) : v.In s := by
  have hmem : ∀ {t : Table Value}, t.get? key = some v → ∃ p ∈ t.entries, p.2 = v := by
    intro t ht
    unfold Table.get? at ht
    split at ht
    · obtain ⟨p, hp, hv⟩ := Option.map_eq_some_iff.mp ht
      exact ⟨p, Array.mem_of_getElem? hp, hv⟩
    · cases ht
  obtain ⟨p, hp, rfl⟩ := hmem hv
  unfold Store.table at hp
  rw [Array.getD_eq_getD_getElem?] at hp
  cases ha : s.arrays[a.index]? with
  | none =>
    rw [ha] at hp
    exact absurd hp (Array.not_mem_empty p)
  | some t =>
    rw [ha] at hp
    exact h.arrays t (Array.mem_of_getElem? ha) p hp

end Closed

end Store

end Roteiro
