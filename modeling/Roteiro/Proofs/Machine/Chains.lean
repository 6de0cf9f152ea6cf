import Roteiro.Proofs.Machine.Frames

/-!
# Chains of frames

A frame and the frames around it are a chain. A name is looked for from the inside outwards, or it
is looked for in one frame only, a given number of links out. The two ways meet in the nearest frame
that binds the name: a search ends there, and so does a jump over as many links as it lies out.

Writing a name goes the same ways. It gives a new value to the one binding that it comes to, and
where it comes to none, it makes none.

* `Store.rebound_define`: what a write changes.
* `readName_eq_readFrom`, `assignName_eq_assignFrom`: which way an occurrence of a name goes.
* `chain_accesses`: both ways along any chain.
-/

namespace Roteiro

namespace Store

variable {s : Store} {r f : Ref .frames} {name : String} {value : Value} {d : Nat}

/-- The frame `f` is the nearest one along the path from `r` that binds the name, and lies `d` links
out. -/
structure Nearest (s : Store) (r : Ref .frames) (name : String) (d : Nat) (f : Ref .frames) :
    Prop where
  place : (s.path r)[d]? = some f
  binds : s.bindsAt name f = true
  first : ∀ i < d, ∀ q, (s.path r)[i]? = some q → s.bindsAt name q = false

/-- The frame `f` is `d` links out from `r`, or it is the outermost one of a shorter chain. -/
def LinksOut (s : Store) (r : Ref .frames) (d : Nat) (f : Ref .frames) : Prop :=
  (s.path r)[d]? = some f ∨ (s.path r).length ≤ d ∧ (s.path r).getLast? = some f

/-- A name that a frame binds has a new value there. Nothing else has changed, and no frame binds
another name than before. -/
structure Rebound (s s' : Store) (f : Ref .frames) (name : String) (value : Value) : Prop where
  bound : s.bindsAt name f = true
  value : (s'.frame f).bindings.find? name = some value
  others : ∀ q x, q ≠ f ∨ x ≠ name →
    (s'.frame q).bindings.find? x = (s.frame q).bindings.find? x
  names : ∀ q, (s'.frame q).bindings.names = (s.frame q).bindings.names
  outer : ∀ q, (s'.frame q).outer = (s.frame q).outer
  size : s'.frames.size = s.frames.size
  functions : s'.functions = s.functions
  classes : s'.classes = s.classes
  arrays : s'.arrays = s.arrays
  instances : s'.instances = s.instances

/-- A frame that binds a name is there. -/
theorem lt_size_of_bindsAt (h : s.bindsAt name f = true) : f.index < s.frames.size := by
  refine Nat.lt_of_not_le fun hle => ?_
  have hframe : s.frame f = default := by
    rw [frame, Array.getD_eq_getD_getElem?, Array.getElem?_eq_none hle]
    rfl
  rw [bindsAt, hframe] at h
  cases h

/-- **What a write changes.** -/
theorem rebound_define (h : s.bindsAt name f = true) (value : Value) :
    s.Rebound (s.define f name value) f name value := by
  have hself := frame_define_self (lt_size_of_bindsAt h) name value
  refine ⟨h, ?_, fun q x hne => ?_, fun q => ?_, fun q => outer_define s f q name value,
    size_define s f name value, rfl, rfl, rfl, rfl⟩
  · rw [hself]
    exact Bindings.find?_insert_self name value _
  · by_cases hq : q = f
    · exact find?_define_of_ne s f q (hne.resolve_left (not_not_intro hq)) value
    · rw [frame_define_of_ne s hq]
  · by_cases hq : q = f
    · rw [hq, hself]
      exact Bindings.names_insert h value
    · rw [frame_define_of_ne s hq]

theorem find?_of_bindsAt (h : s.bindsAt name f = true) :
    ∃ old, (s.frame f).bindings.find? name = some old :=
  Option.isSome_iff_exists.mp h

theorem find?_of_not_bindsAt (h : s.bindsAt name f = false) :
    (s.frame f).bindings.find? name = none :=
  Option.isSome_eq_false_iff.mp h |> Option.isNone_iff_eq_none.mp

/-! ### Searches and jumps -/

/-- What lies along a path lies before the nearest frame, or there, or behind it. -/
theorem Nearest.path_eq (h : s.Nearest r name d f) :
    ∃ front back, s.path r = front ++ f :: back ∧ front.length = d ∧
      ∀ q ∈ front, s.bindsAt name q = false := by
  obtain ⟨hlt, hplace⟩ := List.getElem?_eq_some_iff.mp h.place
  refine ⟨(s.path r).take d, (s.path r).drop (d + 1), ?_,
    List.length_take_of_le (Nat.le_of_lt hlt), ?_⟩
  · rw [← hplace, ← List.drop_eq_getElem_cons hlt, List.take_append_drop]
  · intro q hq
    obtain ⟨i, hi⟩ := List.mem_iff_getElem?.mp hq
    by_cases hid : i < d
    · rw [List.getElem?_take_of_lt hid] at hi
      exact h.first i hid q hi
    · rw [List.getElem?_take_eq_none (Nat.le_of_not_lt hid)] at hi
      cases hi

theorem Nearest.owner?_eq (h : s.Nearest r name d f) : s.owner? r name = some f := by
  obtain ⟨front, back, hpath, -, hfront⟩ := h.path_eq
  rw [owner?, hpath, List.find?_append, List.find?_eq_none.mpr, Option.none_or,
    List.find?_cons_of_pos h.binds]
  intro q hq
  rw [hfront q hq]
  exact Bool.false_ne_true

theorem Nearest.lookup?_eq (h : s.Nearest r name d f) :
    s.lookup? r name = (s.frame f).bindings.find? name := by
  obtain ⟨front, back, hpath, -, hfront⟩ := h.path_eq
  obtain ⟨old, hold⟩ := find?_of_bindsAt h.binds
  have hnone : front.findSome? (fun q => (s.frame q).bindings.find? name) = none :=
    List.findSome?_eq_none_iff.mpr fun q hq => find?_of_not_bindsAt (hfront q hq)
  rw [lookup?, hpath, List.findSome?_append, hnone, Option.none_or, List.findSome?_cons, hold]

theorem LinksOut.ancestor_eq (h : s.LinksOut r d f) : s.ancestor r d = f := by
  unfold ancestor
  rcases h with h | ⟨hle, hlast⟩
  · rw [h]
  · rw [List.getElem?_eq_none hle]
    simp only [List.getLastD_eq_getLast?, hlast, Option.getD_some]

theorem exists_linksOut (s : Store) (r : Ref .frames) (d : Nat) : ∃ f, s.LinksOut r d f := by
  by_cases hlt : d < (s.path r).length
  · exact ⟨_, Or.inl (List.getElem?_eq_getElem hlt)⟩
  · have hlast := List.getLast?_eq_some_getLast (List.cons_ne_nil r (s.frame r).outer)
    exact ⟨_, Or.inr ⟨Nat.le_of_not_lt hlt, hlast⟩⟩

end Store

namespace Machine

/-- Reads a name in the nearest frame around `r` that binds it. -/
def readFrom (r : Ref .frames) (name : Token) : Run Value := fun m =>
  match m.store.lookup? r name.lexeme with
  | some value => .ok value m
  | none => fail name (.undefinedVariable name.lexeme) m

/-- Changes a name in the nearest frame around `r` that binds it. -/
def assignFrom (r : Ref .frames) (name : Token) (value : Value) : Run Unit := fun m =>
  match m.store.assign? r name.lexeme value with
  | some store => .ok () { m with store }
  | none => fail name (.undefinedVariable name.lexeme) m

/-- Reads a name in the frame so many links out from `r`. -/
def readAt (r : Ref .frames) (distance : Nat) (name : Token) : Run Value := fun m =>
  match m.store.lookupAt? r distance name.lexeme with
  | some value => .ok value m
  | none => fail name (.undefinedVariable name.lexeme) m

/-- Changes a name in the frame so many links out from `r`. -/
def assignAt (r : Ref .frames) (distance : Nat) (name : Token) (value : Value) : Run Unit :=
  fun m =>
    match m.store.assignAt? r distance name.lexeme value with
    | some store => .ok () { m with store }
    | none => fail name (.undefinedVariable name.lexeme) m

/-- **Reading an occurrence of a name** is a jump, or a search among the globals. -/
theorem readName_eq_readFrom (id : Nat) (name : Token) (m : Machine) :
    readName id name m = match m.depths[id]? with
      | some distance => readAt m.current distance name m
      | none => readFrom Store.globals name m := by
  unfold readName readAt readFrom
  cases m.depths[id]? <;> rfl

/-- **Assigning to an occurrence of a name** is a jump, or a search among the globals. -/
theorem assignName_eq_assignFrom (id : Nat) (name : Token) (value : Value) (m : Machine) :
    assignName id name value m = match m.depths[id]? with
      | some distance => assignAt m.current distance name value m
      | none => assignFrom Store.globals name value m := by
  unfold assignName assignAt assignFrom owner?
  cases m.depths[id]? with
  | none =>
    simp only [Store.assign?]
    cases m.store.owner? Store.globals name.lexeme <;> rfl
  | some distance =>
    simp only [Store.assignAt?]
    cases m.store.ownerAt? m.current distance name.lexeme <;> rfl

/-- A read and a write of a name that come to its binding in the frame `f`. -/
structure Reaches (m : Machine) (f : Ref .frames) (name : Token) (value : Value) (read : Run Value)
    (write : Run Unit) : Prop where
  read : ∃ old, (m.store.frame f).bindings.find? name.lexeme = some old ∧ read m = .ok old m
  write : ∃ store, write m = .ok () { m with store } ∧
    m.store.Rebound store f name.lexeme value

/-- A read and a write of a name that both fail at its token, and leave the machine as it is. -/
structure Misses (m : Machine) (name : Token) (read : Run Value) (write : Run Unit) : Prop where
  read : read m = .error (.failed ⟨name, .undefinedVariable name.lexeme⟩) m
  write : write m = .error (.failed ⟨name, .undefinedVariable name.lexeme⟩) m

section Accesses

variable {m : Machine} {r f : Ref .frames} {d : Nat} {name : Token}

theorem reaches_from (h : m.store.Nearest r name.lexeme d f) (value : Value) :
    m.Reaches f name value (readFrom r name) (assignFrom r name value) := by
  obtain ⟨old, hold⟩ := Store.find?_of_bindsAt h.binds
  refine ⟨⟨old, hold, ?_⟩, ⟨_, ?_, Store.rebound_define h.binds value⟩⟩
  · simp only [readFrom, h.lookup?_eq, hold]
  · simp only [assignFrom, Store.assign?, h.owner?_eq, Option.map_some]

theorem misses_from (h : ∀ q ∈ m.store.path r, m.store.bindsAt name.lexeme q = false)
    (value : Value) : m.Misses name (readFrom r name) (assignFrom r name value) := by
  have hlookup : m.store.lookup? r name.lexeme = none :=
    List.findSome?_eq_none_iff.mpr fun q hq => Store.find?_of_not_bindsAt (h q hq)
  have howner : m.store.owner? r name.lexeme = none := by
    refine List.find?_eq_none.mpr fun q hq => ?_
    rw [h q hq]
    exact Bool.false_ne_true
  constructor
  · simp only [readFrom, hlookup]
    rfl
  · simp only [assignFrom, Store.assign?, howner, Option.map_none]
    rfl

theorem reaches_at (h : m.store.LinksOut r d f) (hbinds : m.store.bindsAt name.lexeme f = true)
    (value : Value) : m.Reaches f name value (readAt r d name) (assignAt r d name value) := by
  obtain ⟨old, hold⟩ := Store.find?_of_bindsAt hbinds
  refine ⟨⟨old, hold, ?_⟩, ⟨_, ?_, Store.rebound_define hbinds value⟩⟩
  · simp only [readAt, Store.lookupAt?, h.ancestor_eq, hold]
  · simp only [assignAt, Store.assignAt?, Store.ownerAt?, h.ancestor_eq, hbinds, if_true,
      Option.map_some]

theorem misses_at (h : m.store.LinksOut r d f) (hbinds : m.store.bindsAt name.lexeme f = false)
    (value : Value) : m.Misses name (readAt r d name) (assignAt r d name value) := by
  constructor
  · simp only [readAt, Store.lookupAt?, h.ancestor_eq, Store.find?_of_not_bindsAt hbinds]
    rfl
  · simp only [assignAt, Store.assignAt?, Store.ownerAt?, h.ancestor_eq, hbinds,
      Bool.false_eq_true, if_false, Option.map_none]
    rfl

/-- A search ends where the jump over as many links does. -/
theorem from_eq_at (h : m.store.Nearest r name.lexeme d f) (value : Value) :
    readFrom r name m = readAt r d name m ∧
      assignFrom r name value m = assignAt r d name value m := by
  have hancestor : m.store.ancestor r d = f := Store.LinksOut.ancestor_eq (Or.inl h.place)
  constructor
  · simp only [readFrom, readAt, h.lookup?_eq, Store.lookupAt?, hancestor]
  · simp only [assignFrom, assignAt, Store.assign?, Store.assignAt?, Store.ownerAt?, h.owner?_eq,
      hancestor, h.binds, if_true]

/-- **Both ways along a chain of frames.** A search reads and writes the nearest binding of a name,
and is the jump over as many links as that frame lies out. Where no frame binds the name, the search
fails at its token. A jump has to do with one frame only, the one so many links out or else the
outermost one: it reads and writes the binding there, or it fails where there is none. A write
changes nothing but the binding that it comes to, and what fails changes nothing at all. -/
theorem chain_accesses (m : Machine) (r : Ref .frames) (name : Token) (value : Value) :
    (∀ d f, m.store.Nearest r name.lexeme d f →
      m.Reaches f name value (readFrom r name) (assignFrom r name value) ∧
        readFrom r name m = readAt r d name m ∧
        assignFrom r name value m = assignAt r d name value m) ∧
      ((∀ f ∈ m.store.path r, m.store.bindsAt name.lexeme f = false) →
        m.Misses name (readFrom r name) (assignFrom r name value)) ∧
      ∀ d, ∃ f, m.store.LinksOut r d f ∧
        (m.store.bindsAt name.lexeme f = true →
          m.Reaches f name value (readAt r d name) (assignAt r d name value)) ∧
        (m.store.bindsAt name.lexeme f = false →
          m.Misses name (readAt r d name) (assignAt r d name value)) := by
  refine ⟨fun d f h => ⟨reaches_from h value, from_eq_at h value⟩,
    fun h => misses_from h value, fun d => ?_⟩
  obtain ⟨f, hf⟩ := m.store.exists_linksOut r d
  exact ⟨f, hf, fun hbinds => reaches_at hf hbinds value, fun hbinds => misses_at hf hbinds value⟩

end Accesses

/-- A frame without names in a frame that binds `a`, inside of the globals. -/
def nestedFrames : Machine :=
  let m := (initial (.withInput [])).enter Store.globals [("a", .boolean true)]
  m.enter m.current []

/-- The name `a` is found one link out and `b` nowhere, and the innermost frame has no `a`. -/
theorem nestedFrames_chain_accesses :
    let m := nestedFrames
    let a : Token := ⟨.identifier, "a", 1⟩
    let b : Token := ⟨.identifier, "b", 1⟩
    m.Reaches ⟨1⟩ a .nil (readFrom m.current a) (assignFrom m.current a .nil) ∧
      m.Misses b (readFrom m.current b) (assignFrom m.current b .nil) ∧
      m.Misses a (readAt m.current 0 a) (assignAt m.current 0 a .nil) := by
  intro m a b
  obtain ⟨hnearest, -, hat⟩ := chain_accesses m m.current a .nil
  obtain ⟨-, hmissing, -⟩ := chain_accesses m m.current b .nil
  refine ⟨?_, hmissing ?_, ?_⟩
  · refine (hnearest 1 ⟨1⟩ ⟨rfl, rfl, ?_⟩).1
    rintro i hi q hq
    obtain rfl : i = 0 := by omega
    cases hq
    rfl
  · intro f hf
    have hpath : m.store.path m.current = [⟨2⟩, ⟨1⟩, Store.globals] := rfl
    rw [hpath] at hf
    simp only [List.mem_cons, List.not_mem_nil, or_false] at hf
    rcases hf with rfl | rfl | rfl <;> decide +kernel
  · obtain ⟨f, hout, -, hmisses⟩ := hat 0
    obtain rfl : m.store.ancestor m.current 0 = f := hout.ancestor_eq
    exact hmisses rfl

end Machine

end Roteiro
