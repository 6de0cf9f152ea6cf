import Roteiro.Proofs.Machine.Kept

/-!
# The code in a store

The code that a run comes to stands in the program, or in a function that was made before. So if the
functions and methods in a store have some property, and those that are made on the way have it too,
then it is never lost.

* `kept_codes`: no action brings other code into the store.
-/

namespace Roteiro

open Machine

namespace Store

/-- All functions and methods in the store have the property. -/
structure Codes (Q : FunctionDecl → Prop) (s : Store) : Prop where
  functions : ∀ c ∈ s.functions, Q c.decl
  methods : ∀ k ∈ s.classes, ∀ p ∈ k.methods, Q p.2.decl

variable {Q : FunctionDecl → Prop} {s s' : Store}

theorem codes_initial (Q : FunctionDecl → Prop) : initial.Codes Q := by
  constructor
  · intro c hc
    simp [initial] at hc
  · intro k hk
    simp [initial] at hk

/-- Nothing has happened to functions and classes. -/
theorem Codes.congr (h : s.Codes Q) (hfunctions : s'.functions = s.functions)
    (hclasses : s'.classes = s.classes) : s'.Codes Q := by
  refine ⟨?_, ?_⟩
  · rw [hfunctions]
    exact h.functions
  · rw [hclasses]
    exact h.methods

theorem Codes.addFunction (h : s.Codes Q) {c : Closure} (hc : Q c.decl) :
    (s.addFunction c).2.Codes Q := by
  refine ⟨fun c' hc' => ?_, h.methods⟩
  rcases Array.mem_push.mp hc' with hc' | rfl
  · exact h.functions c' hc'
  · exact hc

/-- A function that there is not is an empty one. -/
theorem Codes.closure (h : s.Codes Q) (hdefault : Q (default : Closure).decl)
    (f : Ref .functions) : Q (s.closure f).decl := by
  rcases closure_default_or_mem s f with hc | hc
  · rw [hc]
    exact hdefault
  · exact h.functions _ hc

theorem Codes.method (h : s.Codes Q) {k : Ref .classes} {name : String} {method : Closure}
    (hmethod : (s.classInfo k).methods.find? name = some method) : Q method.decl := by
  obtain ⟨info, hinfo, hp⟩ := class_of_mem_methods (mem_of_find? hmethod)
  exact h.methods info (Array.mem_of_getElem? hinfo) _ hp

end Store

namespace Machine

/-- **No action brings other code into the store** than that of the functions that are made. -/
theorem kept_codes (Q : FunctionDecl → Prop) :
    Kept (fun m m' => m.store.Codes Q → m'.store.Codes Q) (fun _ _ c => Q c.decl) (fun _ => True)
      fun _ _ _ => True where
  refl m := id
  trans h h' := h' ∘ h
  host m host h := h
  define m r name v _ h := h.congr rfl rfl
  putEntry m a key v h := h.congr rfl rfl
  setField m i name v h := h.congr rfl rfl
  addArray m _ h := h.congr rfl rfl
  addInstance m k h := h.congr rfl rfl
  addFrame m around bindings h := h.congr rfl rfl
  lambda m c hc h := h.addFunction hc
  function m decl _ hdecl h := (h.addFunction hdecl).congr rfl rfl
  classDecl m name methods _ hmethods h := by
    refine ⟨h.functions, fun k hk => ?_⟩
    rcases Array.mem_push.mp hk with hk | rfl
    · exact h.methods k hk
    · exact hmethods
  bound m k name method receiver hmethod _ h := by
    have hframe : (m.store.addFrame method.frame [(selfName, .instanceRef receiver)]).2.Codes Q :=
      h.congr rfl rfl
    have hdecl : Q method.decl := h.method hmethod
    exact hframe.addFunction hdecl
  inside m around bindings m' hinside h := hinside (h.congr rfl rfl)

end Machine

end Roteiro
