import Roteiro.Proofs.Session.History
import Roteiro.Proofs.Value.Push

/-!
# The arrays of a session

Arrays are made of lists of values, and after that they change only by values that are put under
keys: by an assignment to an entry, or by a builtin function. So whatever has been run, every array
is a table of that sort, and what is known of such tables is known of all arrays there are.

* `Session.Since.wellMade`: this holds of a session and of every evaluation in its past.
* `Session.Since.pushed`: what pushing a value does to an array, wherever a program does it.
-/

namespace Roteiro

namespace Store

/-- Every array is made of a list and of values put under keys. -/
def WellMade (s : Store) : Prop := ∀ t ∈ s.arrays, t.Made

variable {s : Store}

theorem WellMade.addArray (h : s.WellMade) (values : List Value) :
    (s.addArray (.ofList values)).2.WellMade := by
  intro t ht
  rcases Array.mem_push.mp ht with ht | rfl
  · exact h t ht
  · exact .ofList values

theorem WellMade.putEntry (h : s.WellMade) (a : Ref .arrays) (key : String) (value : Value) :
    (s.putEntry a key value).WellMade := by
  intro t ht
  obtain ⟨i, hi, rfl⟩ := Array.mem_iff_getElem.mp ht
  simp only [Store.putEntry, Array.size_modify] at hi
  simp only [Store.putEntry, Array.getElem_modify]
  split
  · exact (h _ (Array.getElem_mem hi)).put key value
  · exact h _ (Array.getElem_mem hi)

theorem WellMade.table (h : s.WellMade) (a : Ref .arrays) : (s.table a).Made := by
  unfold Store.table
  rw [Array.getD_eq_getD_getElem?]
  cases ha : s.arrays[a.index]? with
  | none => exact .ofList []
  | some t => exact h t (Array.mem_of_getElem? ha)

theorem wellMade_initial : initial.WellMade := by
  intro t ht
  simp [initial] at ht

/-- A value that is put into an array changes nothing but its table. -/
theorem putEntry_eq (a : Ref .arrays) (ha : a.index < s.arrays.size) (key : String)
    (value : Value) :
    s.putEntry a key value =
      { s with arrays := s.arrays.set a.index ((s.table a).put key value) } := by
  have htable : s.table a = s.arrays[a.index] := by
    rw [Store.table, Array.getD_eq_getD_getElem?, Array.getElem?_eq_getElem ha, Option.getD_some]
  rw [Store.putEntry, htable]
  congr 1
  refine Array.ext (by simp) fun i hi _ => ?_
  simp only [Array.getElem_modify, Array.getElem_set]
  split
  · next heq => simp only [heq]
  · rfl

end Store

namespace Machine

/-- Every action leaves arrays that are well made. -/
theorem kept_wellMade : Kept (fun m m' => m.store.WellMade → m'.store.WellMade) (fun _ _ _ => True)
    (fun _ => True) fun _ _ _ => True where
  refl _ := id
  trans h h' := h' ∘ h
  host _ _ := id
  define _ _ _ _ _ := id
  putEntry _ a key v h := h.putEntry a key v
  setField _ _ _ _ := id
  addArray _ values h := h.addArray values
  addInstance _ _ := id
  addFrame _ _ _ := id
  lambda _ _ _ := id
  function _ _ _ _ := id
  classDecl _ _ _ _ _ := id
  bound _ _ _ _ _ _ _ := id
  inside _ _ _ _ h := h

/-- **Arrays stay well made**, to the end of a run and at the start of every evaluation in it. -/
theorem wellMade_run {m : Machine} (h : m.store.WellMade) (fuel : Nat) (program : List Stmt) :
    (final (execProgram fuel program) m).store.WellMade ∧
      ∀ M, Reached fuel program m M → M.machine.store.WellMade := by
  have hrun : (m.store.WellMade → (final (execProgram fuel program) m).store.WellMade) ∧
      ∀ M, Reached fuel program m M → M.machine.store.WellMade := by
    refine kept_wellMade.program (fun _ _ => trivial) (fun hM _ hleads => ?_) fun _ _ _ hm' => hm' h
    cases hleads with
    | part _ hR | others _ hR | step hR | call hR => exact hR hM
    | block | callFunction | callInitializer | body => exact hM
  exact ⟨hrun.1 h, hrun.2⟩

end Machine

/-- A value is pushed under the text of the number of entries. -/
theorem call_push (a : Ref .arrays) (v : Value) (m : Machine) :
    Builtin.push.call [.array a, v] m =
      .ok (.array a) { m with store := m.store.putEntry a (m.store.table a).nextKey v } :=
  rfl

namespace Session

variable {host : Host} {s : Session} {past : List Played}

/-- **All arrays are well made**, in a session and at the start of every evaluation in its past. -/
theorem Since.wellMade (h : Since host s past) :
    s.machine.store.WellMade ∧ ∀ M, Visited past M → M.machine.store.WellMade := by
  refine h.along (P := fun s past => s.WellMade ∧ ∀ M, Visited past M → M.machine.store.WellMade)
    ⟨Store.wellMade_initial, fun M hM => absurd hM (not_visited_nil M)⟩ fun {_ _ p} _ ih => ?_
  obtain ⟨hend, hreached⟩ := Machine.wellMade_run ih.1 p.fuel p.program
  exact ⟨hend, Visited.forall_cons hreached ih.2⟩

/-- **What pushing a value does**, wherever in a session it is done. The array is given back, and
nothing changes but its table. The value goes behind all entries, which stay where they are, if the
text of their number is no key yet; and so it is in a dense array. If that text is a key, then the
value takes the place of the one there. -/
theorem Since.pushed (h : Since host s past) {M : Machine.Moment} (hM : Visited past M)
    {a : Ref .arrays} (ha : a.index < M.machine.store.arrays.size) (v : Value) :
    ∃ t', Builtin.push.call [.array a, v] M.machine =
        .ok (.array a) { M.machine with
          store := { M.machine.store with arrays := M.machine.store.arrays.set a.index t' } } ∧
      let t := M.machine.store.table a
      (t.contains t.nextKey = false → t.Appended v t') ∧
      (t.contains t.nextKey = true → t.Replaced v t') ∧
      (t.dense = true → t.Appended v t' ∧ t'.dense = true) := by
  have hmade := (h.wellMade.2 M hM).table a
  refine ⟨(M.machine.store.table a).push v, ?_, fun hnew => hmade.push_appended hnew v,
    fun hold => hmade.push_replaced hold v, fun hdense => ⟨?_, hmade.dense_push hdense v⟩⟩
  · rw [call_push, Store.putEntry_eq a ha]
    rfl
  · exact hmade.push_appended (hmade.not_contains_of_dense hdense) v

/-- An array in which the number of entries is a key. -/
def takenKey : String := "var a = []; inserir(a, \"1\", nulo); empilhar(a, nulo);"

def takenTokens : List Token :=
  [⟨.varKw, "var", 1⟩, ⟨.identifier, "a", 1⟩, ⟨.equal, "=", 1⟩, ⟨.leftBracket, "[", 1⟩,
   ⟨.rightBracket, "]", 1⟩, ⟨.semicolon, ";", 1⟩, ⟨.identifier, "inserir", 1⟩,
   ⟨.leftParen, "(", 1⟩, ⟨.identifier, "a", 1⟩, ⟨.comma, ",", 1⟩, ⟨.string "1", "\"1\"", 1⟩,
   ⟨.comma, ",", 1⟩, ⟨.nullKw, "nulo", 1⟩, ⟨.rightParen, ")", 1⟩, ⟨.semicolon, ";", 1⟩,
   ⟨.identifier, "empilhar", 1⟩, ⟨.leftParen, "(", 1⟩, ⟨.identifier, "a", 1⟩, ⟨.comma, ",", 1⟩,
   ⟨.nullKw, "nulo", 1⟩, ⟨.rightParen, ")", 1⟩, ⟨.semicolon, ";", 1⟩, ⟨.endOfInput, "", 1⟩]

def takenArray : Stmt := .var ⟨.identifier, "a", 1⟩ (some (.array ⟨.leftBracket, "[", 1⟩ []))

def takenInsertion : Stmt :=
  .expression (.call (.var 0 ⟨.identifier, "inserir", 1⟩) ⟨.rightParen, ")", 1⟩
    [.var 1 ⟨.identifier, "a", 1⟩, .literal (.string "1"), .literal .nil])

def takenPush : Stmt :=
  .expression (.call (.var 2 ⟨.identifier, "empilhar", 1⟩) ⟨.rightParen, ")", 1⟩
    [.var 3 ⟨.identifier, "a", 1⟩, .literal .nil])

def takenProgram : List Stmt := [takenArray, takenInsertion, takenPush]

def takenSession : Session :=
  let started := Session.start (.withInput [])
  ⟨{ started.machine with depths := (Scope.resolve takenProgram ∅).depths }, 4⟩

theorem tokenize_takenKey : Token.tokenize takenKey = (takenTokens, []) := by
  decide +kernel

theorem accepts_takenKey :
    (Session.start (.withInput [])).Accepts takenKey takenProgram takenSession where
  scanned := by rw [tokenize_takenKey]
  parsed := by
    rw [tokenize_takenKey]
    rfl
  accepted := by decide +kernel
  ready := by
    rw [tokenize_takenKey]
    rfl

/-- The machine when the value is pushed. -/
def takenMachine : Machine :=
  Machine.final (Machine.execProgram 9 [takenArray, takenInsertion]) takenSession.machine

/-- The value that is pushed takes the place of the one under the key `1`. -/
theorem takenKey_push :
    Visited [⟨takenProgram, 9, takenSession.machine⟩]
      ⟨7, .call (.builtin .push) ⟨.rightParen, ")", 1⟩ [.array ⟨0⟩, .nil], takenMachine⟩ ∧
    ∃ (ha : 0 < takenMachine.store.arrays.size) (t' : Table Value),
      Builtin.push.call [.array ⟨0⟩, .nil] takenMachine =
        .ok (.array ⟨0⟩) { takenMachine with
          store := { takenMachine.store with arrays := takenMachine.store.arrays.set 0 t' } } ∧
      (takenMachine.store.table ⟨0⟩).Replaced .nil t' := by
  have hsince := Since.accepted .start 9 (d := .none) rfl accepts_takenKey
  have hreached : Machine.Reached 9 takenProgram takenSession.machine
      ⟨7, .call (.builtin .push) ⟨.rightParen, ")", 1⟩ [.array ⟨0⟩, .nil], takenMachine⟩ :=
    .later rfl (.later rfl (.here (.step (.call rfl rfl) (.step .expression (.refl _)))))
  have hM : Visited [⟨takenProgram, 9, takenSession.machine⟩] _ := ⟨_, List.mem_cons_self, hreached⟩
  have ha : 0 < takenMachine.store.arrays.size := by decide +kernel
  have hold : (takenMachine.store.table ⟨0⟩).contains
      (takenMachine.store.table ⟨0⟩).nextKey = true := by
    decide +kernel
  obtain ⟨t', hcall, -, hreplaced, -⟩ := hsince.pushed hM (a := ⟨0⟩) ha .nil
  exact ⟨hM, ha, t', hcall, hreplaced hold⟩

end Session

end Roteiro
