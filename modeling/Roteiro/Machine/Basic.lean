import Roteiro.Scope.Basic
import Roteiro.Value.Display

/-!
# The machine

What a running program can see and change: the store, the frame it is in, the depths of its name
occurrences, and the host with its input and output, its clock and its draws.

What the clock will show and what will be drawn is not for the program to know. A host comes with
all of its answers, whatever they are, and gives them out one after another.

A step of the machine gives a result, or fails at a token, or runs out of fuel; in every case the
machine goes on from where the step left it.
-/

namespace Roteiro

/-- Answers that are given out one after another. -/
structure Supply (α : Type) where
  /-- All of the answers. -/
  answer : Nat → α
  /-- How many of them have been given out. -/
  given : Nat

namespace Supply

variable {α : Type}

/-- The same answer time and again. -/
def constant (a : α) : Supply α := ⟨fun _ => a, 0⟩

/-- The next answer. -/
def next (s : Supply α) : α := s.answer s.given

/-- What is left behind the next answer. -/
def rest (s : Supply α) : Supply α := { s with given := s.given + 1 }

end Supply

/-- The surroundings of a program. -/
structure Host where
  /-- The bytes of standard input that have not been read. -/
  input : List UInt8
  /-- The text written so far. -/
  output : String
  /-- What the clock shows whenever it is read, in seconds since the start of 1970. -/
  clock : Supply Int
  /-- What is drawn whenever a random number is asked for. -/
  draws : Supply Nat

/-- A host with some input, of which the clock stands still and nothing but zeros are drawn. -/
def Host.withInput (input : List UInt8) : Host := ⟨input, "", .constant 0, .constant 0⟩

/-- The state of a running program. -/
structure Machine where
  store : Store
  /-- The frame that holds the names of the present scope. -/
  current : Ref .frames
  depths : Depths
  host : Host

/-- Why a step gives no result. -/
inductive Halt where
  | failed (error : RuntimeError)
  | outOfFuel

/-- A step of the machine. -/
abbrev Run := EStateM Halt Machine

/-- How a statement ends. -/
inductive Flow where
  | normal
  | exitLoop
  | nextIteration
  | result (value : Value)
  deriving DecidableEq, Repr

namespace Machine

/-- The machine before anything is run. -/
def initial (host : Host) : Machine :=
  { store := .initial, current := Store.globals, depths := ∅, host }

/-- Fails at a token. -/
def fail {α : Type} (token : Token) (failure : Failure) : Run α :=
  throw (.failed ⟨token, failure⟩)

/-- The result, or a failure at a token. -/
def orFail {α : Type} (token : Token) : Except Failure α → Run α
  | .ok a => pure a
  | .error failure => fail token failure

/-- Reads from the store. -/
@[inline] def withStore {α : Type} (f : Store → α) : Run α := fun m => .ok (f m.store) m

/-- Adds something to the store. -/
@[inline] def allocate {α : Type} (add : Store → α × Store) : Run α := fun m =>
  let ⟨store, current, depths, host⟩ := m
  let (a, store) := add store
  .ok a ⟨store, current, depths, host⟩

/-- Changes the store. -/
@[inline] def changeStore (f : Store → Store) : Run Unit := fun m =>
  let ⟨store, current, depths, host⟩ := m
  .ok () ⟨f store, current, depths, host⟩

/-- Writes a text. -/
def write (text : String) : Run Unit := fun m =>
  let ⟨store, current, depths, host⟩ := m
  .ok () ⟨store, current, depths, { host with output := host.output ++ text }⟩

/-- Binds a name in the present frame. -/
def define (name : String) (value : Value) : Run Unit := fun m =>
  let ⟨store, current, depths, host⟩ := m
  .ok () ⟨store.define current name value, current, depths, host⟩

/-- Runs a step in another frame, and comes back to the present one however it ends. -/
@[inline] def inFrame {α : Type} (frame : Ref .frames) (step : Run α) : Run α := fun m =>
  let ⟨store, saved, depths, host⟩ := m
  match step ⟨store, frame, depths, host⟩ with
  | .ok a ⟨store, _, depths, host⟩ => .ok a ⟨store, saved, depths, host⟩
  | .error e ⟨store, _, depths, host⟩ => .error e ⟨store, saved, depths, host⟩

/-- Runs a step in a new frame inside the present one. -/
@[inline] def inNewFrame {α : Type} (step : Run α) : Run α := do
  let here ← (fun m => .ok m.current m : Run (Ref .frames))
  let frame ← allocate fun s => s.addFrame here []
  inFrame frame step

/-- The value of an occurrence of a name: at its depth if it has one, among the globals
otherwise. -/
def readName (id : Nat) (name : Token) : Run Value := fun m =>
  let found :=
    match m.depths[id]? with
    | some distance => m.store.lookupAt? m.current distance name.lexeme
    | none => m.store.lookup? Store.globals name.lexeme
  match found with
  | some value => .ok value m
  | none => fail name (.undefinedVariable name.lexeme) m

/-- The frame that binds what an occurrence of a name means: the one at its depth if it has one, the
globals otherwise. -/
def owner? (m : Machine) (id : Nat) (name : String) : Option (Ref .frames) :=
  match m.depths[id]? with
  | some distance => m.store.ownerAt? m.current distance name
  | none => m.store.owner? Store.globals name

/-- Changes what an occurrence of a name means: at its depth if it has one, among the globals
otherwise. -/
def assignName (id : Nat) (name : Token) (value : Value) : Run Unit := fun m =>
  match m.owner? id name.lexeme with
  | some frame =>
    let ⟨store, current, depths, host⟩ := m
    .ok () ⟨store.define frame name.lexeme value, current, depths, host⟩
  | none => fail name (.undefinedVariable name.lexeme) m

end Machine

end Roteiro
