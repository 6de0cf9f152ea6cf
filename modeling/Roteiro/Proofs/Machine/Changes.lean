import Roteiro.Proofs.Machine.Chains
import Roteiro.Proofs.Session.Arrays

/-!
# All or nothing

An expression that changes something, an assignment or a call of a builtin function, evaluates its
operands first. With their values it makes its change in a single stroke, and every check comes
before that stroke: so what fails has changed nothing but what its operands had, and what does not
fail has changed one binding, one entry or one field.

* `Poised`: the operands have their values, and the change remains to be made.
* `Change.perform_cases`: a change fails and leaves the machine as it is, or it hits its target.
* `Poised.all_or_nothing`: what the whole expression does then.
-/

namespace Roteiro

/-- The builtin functions that change an array or make a new one. -/
def Builtin.changing : List Builtin := [.push, .insert, .newVector, .fillList]

namespace Machine

/-- A change that remains to be made, with the values of its operands. -/
inductive Change where
  | assign (id : Nat) (name : Token) (value : Value)
  | entry (bracket : Token) (base key value : Value)
  | field (name : Token) (object : Ref .instances) (value : Value)
  /-- A field of something that has no fields: the value is not asked for. -/
  | noField (name : Token)
  | builtin (b : Builtin) (hb : b ∈ Builtin.changing) (paren : Token) (arguments : List Value)

/-- What can be changed. -/
inductive Target where
  | binding (frame : Ref .frames) (name : String)
  | entry (array : Ref .arrays) (key : String)
  | field (object : Ref .instances) (name : String)

/-- What a change is meant to hit, if there is such a thing and it is not new. -/
def Change.target? (m : Machine) : Change → Option Target
  | assign id name _ => (m.owner? id name.lexeme).map (Target.binding · name.lexeme)
  | entry _ (.array a) key _ => key.key?.map (Target.entry a)
  | field name object _ => some (.field object name.lexeme)
  | builtin .push _ _ [.array a, _] => some (.entry a (m.store.table a).nextKey)
  | builtin .insert _ _ [.array a, key, _] => key.key?.map (Target.entry a)
  | _ => none

/-- `Poised n e m c m'`: with so much fuel the operands of `e` have been evaluated, one after
another. The change `c` with their values remains to be made, in the machine `m'`. -/
inductive Poised (n : Nat) : Expr → Machine → Change → Machine → Prop
  | assign {id name e m v m'} (hvalue : eval n e m = .ok v m') :
    Poised n (.assign id name e) m (.assign id name v) m'
  | entry {bracket base key e m b m₁ k m₂ v m'} (hbase : eval n base m = .ok b m₁)
      (hkey : eval n key m₁ = .ok k m₂) (hvalue : eval n e m₂ = .ok v m') :
    Poised n (.indexSet bracket base key e) m (.entry bracket b k v) m'
  | field {object name e m i m₁ v m'} (hobject : eval n object m = .ok (.instanceRef i) m₁)
      (hvalue : eval n e m₁ = .ok v m') :
    Poised n (.set object name e) m (.field name i v) m'
  | noField {object name e m v m'} (hobject : eval n object m = .ok v m')
      (hv : ∀ i, v ≠ .instanceRef i) :
    Poised n (.set object name e) m (.noField name) m'
  | builtin {callee paren arguments m b m₁ vs m'} (hcallee : eval n callee m = .ok (.builtin b) m₁)
      (harguments : evalAll n arguments m₁ = .ok vs m') (hb : b ∈ Builtin.changing) :
    Poised n (.call callee paren arguments) m (.builtin b hb paren vs) m'

/-- Makes the change. -/
def Change.perform : Change → Run Value
  | assign id name value => do
    assignName id name value
    return value
  | entry bracket base key value => do
    let a ← arrayAt bracket base
    let k ← keyAt bracket key
    changeStore fun s => s.putEntry a k value
    return value
  | field name object value => do
    changeStore fun s => s.setField object name.lexeme value
    return value
  | noField name => fail name .fieldOfNonInstance
  | builtin b _ paren arguments => callBuiltin b paren arguments

/-- Nothing that was there has changed but the target. There may be a new array. -/
structure SameBut (m m' : Machine) (target? : Option Target) : Prop where
  frames : m'.store.frames.size = m.store.frames.size
  outer : ∀ r, (m'.store.frame r).outer = (m.store.frame r).outer
  bindings : ∀ r x, target? ≠ some (.binding r x) →
    (m'.store.frame r).bindings.find? x = (m.store.frame r).bindings.find? x
  arrays : m.store.arrays.size ≤ m'.store.arrays.size
  /-- An array without the target is as it was. -/
  tables : ∀ a : Ref .arrays, a.index < m.store.arrays.size →
    (∀ k, target? ≠ some (.entry a k)) → m'.store.table a = m.store.table a
  /-- The other entries of an array keep their places, and none is added to them. -/
  places : ∀ a : Ref .arrays, a.index < m.store.arrays.size →
    ∀ (place : Nat) (k : String) (v : Value), target? ≠ some (.entry a k) →
      ((m'.store.table a).entries[place]? = some (k, v) ↔
        (m.store.table a).entries[place]? = some (k, v))
  entries : ∀ a : Ref .arrays, a.index < m.store.arrays.size → ∀ k, target? ≠ some (.entry a k) →
    (m'.store.table a).get? k = (m.store.table a).get? k
  instances : m'.store.instances.size = m.store.instances.size
  classRef : ∀ i, (m'.store.instanceAt i).classRef = (m.store.instanceAt i).classRef
  fields : ∀ i x, target? ≠ some (.field i x) →
    (m'.store.instanceAt i).fields.find? x = (m.store.instanceAt i).fields.find? x
  functions : m'.store.functions = m.store.functions
  classes : m'.store.classes = m.store.classes
  current : m'.current = m.current
  depths : m'.depths = m.depths
  host : m'.host = m.host

variable {m m' : Machine} {n : Nat} {e : Expr} {c : Change}

/-- An expression whose operands have their values makes its change. -/
theorem Poised.eval_eq (h : Poised n e m c m') : eval (n + 1) e m = c.perform m' := by
  cases h with
  | assign hvalue =>
    unfold eval
    simp only [Bind.bind, EStateM.bind, hvalue]
    rfl
  | entry hbase hkey hvalue =>
    unfold eval
    simp only [Bind.bind, EStateM.bind, hbase, hkey, hvalue]
    rfl
  | field hobject hvalue =>
    unfold eval
    simp only [Bind.bind, EStateM.bind, hobject, hvalue]
    rfl
  | @noField _ _ _ _ v _ hobject hv =>
    unfold eval
    simp only [Bind.bind, EStateM.bind, hobject]
    cases v with
    | instanceRef i => exact absurd rfl (hv i)
    | _ => rfl
  | builtin hcallee harguments =>
    unfold eval
    simp only [Bind.bind, EStateM.bind, hcallee, harguments]
    -- a call takes fuel, and there is some, because the callee was evaluated with it
    cases n with
    | zero => cases hcallee
    | succ n => rfl

/-! ### What a change hits -/

theorem bindsAt_of_owner? {id : Nat} {name : String} {f : Ref .frames}
    (h : m.owner? id name = some f) : m.store.bindsAt name f = true := by
  unfold owner? at h
  split at h
  · unfold Store.ownerAt? at h
    dsimp only at h
    split at h
    · next hbinds =>
      cases h
      exact hbinds
    · cases h
  · exact List.find?_some h

theorem SameBut.refl (m : Machine) (target? : Option Target) : m.SameBut m target? :=
  ⟨rfl, fun _ => rfl, fun _ _ _ => rfl, Nat.le_refl _, fun _ _ _ => rfl, fun _ _ _ _ _ _ => Iff.rfl,
    fun _ _ _ _ => rfl, rfl, fun _ => rfl, fun _ _ _ => rfl, rfl, rfl, rfl, rfl, rfl⟩

theorem sameBut_define {f : Ref .frames} {name : String} (h : m.store.bindsAt name f = true)
    (value : Value) :
    m.SameBut { m with store := m.store.define f name value } (some (.binding f name)) := by
  have hrebound := Store.rebound_define h value
  have hothers : ∀ r x, some (Target.binding f name) ≠ some (.binding r x) → r ≠ f ∨ x ≠ name := by
    intro r x hne
    by_cases hr : r = f
    · refine Or.inr fun hx => hne ?_
      rw [hr, hx]
    · exact Or.inl hr
  exact
    { SameBut.refl m _ with
      frames := hrebound.size
      outer := hrebound.outer
      bindings := fun r x hne => hrebound.others r x (hothers r x hne) }

theorem table_putEntry_or (s : Store) (a b : Ref .arrays) (key : String) (value : Value) :
    (s.putEntry a key value).table b = s.table b ∨
      b = a ∧ (s.putEntry a key value).table b = (s.table b).put key value := by
  by_cases hindex : a.index = b.index
  · have hba : b = a := congrArg Ref.mk hindex.symm
    simp only [Store.putEntry, Store.table, Array.getD_eq_getD_getElem?, Array.getElem?_modify,
      if_pos hindex]
    cases s.arrays[b.index]? with
    | none => exact Or.inl rfl
    | some t => exact Or.inr ⟨hba, rfl⟩
  · refine Or.inl ?_
    simp only [Store.putEntry, Store.table, Array.getD_eq_getD_getElem?, Array.getElem?_modify,
      if_neg hindex]

theorem sameBut_putEntry (hm : m.store.WellMade) (a : Ref .arrays) (key : String) (value : Value) :
    m.SameBut { m with store := m.store.putEntry a key value } (some (.entry a key)) := by
  have hkey : ∀ {b : Ref .arrays} {k : String}, b = a →
      some (Target.entry a key) ≠ some (.entry b k) → k ≠ key := by
    rintro b k rfl hne rfl
    exact hne rfl
  refine { SameBut.refl m _ with arrays := ?_, tables := ?_, places := ?_, entries := ?_ }
  · simp [Store.putEntry]
  · intro b _ hnot
    rcases table_putEntry_or m.store a b key value with hsame | ⟨hb, -⟩
    · exact hsame
    · exact absurd rfl (hkey hb (hnot key))
  · intro b _ place k v hne
    rcases table_putEntry_or m.store a b key value with hsame | ⟨hb, hput⟩
    · rw [hsame]
    · rw [hput]
      exact (hm.table b).entries_put_iff (hkey hb hne) value
  · intro b _ k hne
    rcases table_putEntry_or m.store a b key value with hsame | ⟨hb, hput⟩
    · rw [hsame]
    · rw [hput]
      exact (hm.table b).get?_put_of_ne (hkey hb hne) value

theorem instanceAt_setField_or (s : Store) (i j : Ref .instances) (name : String) (value : Value) :
    (s.setField i name value).instanceAt j = s.instanceAt j ∨
      j = i ∧ (s.setField i name value).instanceAt j =
        { s.instanceAt j with fields := (s.instanceAt j).fields.insert name value } := by
  by_cases hindex : i.index = j.index
  · have hji : j = i := congrArg Ref.mk hindex.symm
    simp only [Store.setField, Store.instanceAt, Array.getD_eq_getD_getElem?,
      Array.getElem?_modify, if_pos hindex]
    cases s.instances[j.index]? with
    | none => exact Or.inl rfl
    | some object => exact Or.inr ⟨hji, rfl⟩
  · refine Or.inl ?_
    simp only [Store.setField, Store.instanceAt, Array.getD_eq_getD_getElem?,
      Array.getElem?_modify, if_neg hindex]

theorem sameBut_setField (i : Ref .instances) (name : String) (value : Value) :
    m.SameBut { m with store := m.store.setField i name value } (some (.field i name)) := by
  refine { SameBut.refl m _ with instances := ?_, classRef := ?_, fields := ?_ }
  · simp [Store.setField]
  · intro j
    rcases instanceAt_setField_or m.store i j name value with hsame | ⟨-, hset⟩
    · rw [hsame]
    · rw [hset]
  · intro j x hne
    rcases instanceAt_setField_or m.store i j name value with hsame | ⟨hj, hset⟩
    · rw [hsame]
    · have hx : x ≠ name := fun hx => hne (by rw [hj, hx])
      rw [hset]
      exact Bindings.find?_insert_of_ne hx value _

theorem sameBut_addArray (values : List Value) :
    m.SameBut { m with store := (m.store.addArray (.ofList values)).2 } none := by
  have htable : ∀ a : Ref .arrays, a.index < m.store.arrays.size →
      (m.store.addArray (.ofList values)).2.table a = m.store.table a := by
    intro a ha
    simp [Store.addArray, Store.table, Array.getD_eq_getD_getElem?, Array.getElem?_push,
      Nat.ne_of_lt ha]
  refine { SameBut.refl m _ with arrays := ?_, tables := ?_, places := ?_, entries := ?_ }
  · simp [Store.addArray]
  · exact fun a ha _ => htable a ha
  · intro a ha place k v _
    rw [htable a ha]
  · intro a ha k _
    rw [htable a ha]

/-! ### A change is made, or it is not -/

/-- A change fails and leaves the machine as it is, or it hits its target and nothing else. -/
def Change.Sharp (c : Change) (m : Machine) : Prop :=
  (∃ error, c.perform m = .error error m) ∨
    ∃ value m', c.perform m = .ok value m' ∧ m.SameBut m' (c.target? m)

theorem sharp_assign (id : Nat) (name : Token) (value : Value) :
    (Change.assign id name value).Sharp m := by
  unfold Change.Sharp
  simp only [Change.perform, Change.target?, Bind.bind, EStateM.bind, assignName]
  cases howner : m.owner? id name.lexeme with
  | none => exact Or.inl ⟨_, rfl⟩
  | some f => exact Or.inr ⟨_, _, rfl, sameBut_define (bindsAt_of_owner? howner) value⟩

theorem sharp_entry (hm : m.store.WellMade) (bracket : Token) (base key value : Value) :
    (Change.entry bracket base key value).Sharp m := by
  unfold Change.Sharp
  simp only [Change.perform, Bind.bind, EStateM.bind]
  cases base with
  | array a =>
    simp only [arrayAt, keyAt, Change.target?]
    cases key.key? with
    | none => exact Or.inl ⟨_, rfl⟩
    | some k => exact Or.inr ⟨_, _, rfl, sameBut_putEntry hm a k value⟩
  | _ => exact Or.inl ⟨_, rfl⟩

/-- A new array is made if the size is one. -/
theorem sharp_filled (size : Except Failure Nat) (v : Value) :
    let act := Builtin.check size >>= fun n => Builtin.filled n v
    (∃ failure, act m = .error failure m) ∨
      ∃ value m', act m = .ok value m' ∧ m.SameBut m' none := by
  cases size with
  | error failure => exact Or.inl ⟨failure, rfl⟩
  | ok n => exact Or.inr ⟨_, _, rfl, sameBut_addArray (List.replicate n v)⟩

theorem sharp_call (hm : m.store.WellMade) {b : Builtin} (hb : b ∈ Builtin.changing)
    (paren : Token) (arguments : List Value) :
    (∃ failure, b.call arguments m = .error failure m) ∨
      ∃ value m', b.call arguments m = .ok value m' ∧
        m.SameBut m' ((Change.builtin b hb paren arguments).target? m) := by
  unfold Builtin.call
  split
  case h_5 target v =>
    cases target with
    | array a => exact Or.inr ⟨_, _, rfl, sameBut_putEntry hm a _ v⟩
    | _ => exact Or.inl ⟨_, rfl⟩
  case h_6 target place v =>
    cases target with
    | array a =>
      simp only [Builtin.key, Change.target?]
      cases place.key? with
      | none => exact Or.inl ⟨_, rfl⟩
      | some k => exact Or.inr ⟨_, _, rfl, sameBut_putEntry hm a k v⟩
    | _ => exact Or.inl ⟨_, rfl⟩
  case h_9 length v | h_11 length v => exact sharp_filled _ v
  case h_10 length => exact sharp_filled _ .nil
  -- the function does not take so many arguments
  case h_12 => exact Or.inl ⟨_, rfl⟩
  -- the other functions change nothing
  all_goals exact absurd hb (by decide)

theorem sharp_builtin (hm : m.store.WellMade) {b : Builtin} (hb : b ∈ Builtin.changing)
    (paren : Token) (arguments : List Value) : (Change.builtin b hb paren arguments).Sharp m := by
  unfold Change.Sharp
  simp only [Change.perform, callBuiltin]
  rcases sharp_call hm hb paren arguments with ⟨failure, hcall⟩ | ⟨value, m', hcall, hsame⟩
  · rw [hcall]
    exact Or.inl ⟨_, rfl⟩
  · rw [hcall]
    exact Or.inr ⟨value, m', rfl, hsame⟩

theorem Change.sharp (hm : m.store.WellMade) (c : Change) : c.Sharp m := by
  cases c with
  | assign id name value => exact sharp_assign id name value
  | entry bracket base key value => exact sharp_entry hm bracket base key value
  | field name i value => exact Or.inr ⟨_, _, rfl, sameBut_setField i name.lexeme value⟩
  | noField name => exact Or.inl ⟨_, rfl⟩
  | builtin b hb paren arguments => exact sharp_builtin hm hb paren arguments

/-- Evaluating operands leaves arrays well made. -/
theorem Poised.wellMade (h : Poised n e m c m') (hm : m.store.WellMade) :
    m'.store.WellMade := by
  have heval : ∀ {e m v m'}, eval n e m = .ok v m' → m.store.WellMade → m'.store.WellMade := by
    intro e m v m' hrun hm
    have hkept := kept_wellMade.run ⟨n, .eval e, m⟩ hm
    simpa only [Moment.final, final, Task.run, hrun] using hkept
  cases h with
  | assign hvalue => exact heval hvalue hm
  | entry hbase hkey hvalue => exact heval hvalue (heval hkey (heval hbase hm))
  | field hobject hvalue => exact heval hvalue (heval hobject hm)
  | noField hobject => exact heval hobject hm
  | @builtin _ _ arguments _ _ m₁ _ _ hcallee harguments =>
    have hkept := kept_wellMade.run ⟨n, .evalAll arguments, m₁⟩ (heval hcallee hm)
    simpa only [Moment.final, final, Task.run, harguments] using hkept

/-- **All or nothing.** When its operands have their values, an expression that changes something
may still fail, and then the machine is left as its operands left it. If it does not fail, then of
all that was there before the change only its target may be different: the one binding of the name,
the one key of the array, the one field of the instance, or nothing at all where a new array is
made. Arrays are well made in every session, at every moment (`Since.wellMade`). -/
theorem Poised.all_or_nothing (h : Poised n e m c m') (hm : m.store.WellMade) :
    (∀ error m'', eval (n + 1) e m = .error error m'' → m'' = m') ∧
      ∀ value m'', eval (n + 1) e m = .ok value m'' → m'.SameBut m'' (c.target? m') := by
  rw [h.eval_eq]
  rcases c.sharp (h.wellMade hm) with ⟨error, hperform⟩ | ⟨value, m₁, hperform, hsame⟩
  · rw [hperform]
    refine ⟨fun _ _ hfailed => ?_, fun _ _ hdone => (nomatch hdone)⟩
    injection hfailed with _ hmachine
    exact hmachine.symm
  · rw [hperform]
    refine ⟨fun _ _ hfailed => (nomatch hfailed), fun _ _ hdone => ?_⟩
    injection hdone with _ hmachine
    rw [← hmachine]
    exact hsame

/-- The machine of a program that has an empty array under the name `a`. -/
def arrayMachine : Machine :=
  let started := Machine.initial (.withInput [])
  let store := (started.store.addArray (.ofList [])).2
  { started with store := store.define Store.globals "a" (.array ⟨0⟩) }

/-- The assignment of `nulo` to an entry of the array `a`. -/
def entryAssignment (key : Literal) : Expr :=
  .indexSet ⟨.leftBracket, "[", 1⟩ (.var 0 ⟨.identifier, "a", 1⟩) (.literal key) (.literal .nil)

/-- An entry under a key that is none, and one under a key. -/
theorem entryAssignment_all_or_nothing :
    (∃ error, eval 2 (entryAssignment .nil) arrayMachine = .error error arrayMachine) ∧
      ∃ m', eval 2 (entryAssignment (.string "k")) arrayMachine = .ok .nil m' ∧
        arrayMachine.SameBut m' (some (.entry ⟨0⟩ "k")) := by
  have hm : arrayMachine.store.WellMade := Store.wellMade_initial.addArray []
  have hpoised : ∀ key, Poised 1 (entryAssignment key) arrayMachine
      (.entry ⟨.leftBracket, "[", 1⟩ (.array ⟨0⟩) (literal key) .nil) arrayMachine :=
    fun key => .entry rfl rfl rfl
  obtain ⟨hfailed, -⟩ := (hpoised .nil).all_or_nothing hm
  obtain ⟨-, hdone⟩ := (hpoised (.string "k")).all_or_nothing hm
  constructor
  · have hrun : eval 2 (entryAssignment .nil) arrayMachine =
        .error (.failed ⟨⟨.leftBracket, "[", 1⟩, .badIndex⟩) _ := rfl
    rw [hfailed _ _ hrun] at hrun
    exact ⟨_, hrun⟩
  · exact ⟨_, rfl, hdone _ _ rfl⟩

end Machine

end Roteiro
