import Roteiro.Machine.Basic
import Roteiro.Text.Utf8

/-!
# Builtin functions

The builtin functions take values and give a value; they call nothing back. A failure is blamed on
the call by whoever made it. Every function looks at all of its arguments before it changes
anything.
-/

namespace Roteiro

namespace Builtin

/-- What a builtin function does: it may change the machine, and may fail. -/
abbrev Act := EStateM Failure Machine

/-- A number in the given role. -/
def number (role : String) : Value → Except Failure Float
  | .number x => .ok x
  | v => .error (.notANumber role v.type)

/-- A size: an integer from zero to the most that is allowed. -/
def count (s : Store) (v : Value) : Except Failure Nat := do
  let x ← number "Size" v
  match (Decimal.Binary.ofFloat x).toInt? with
  | some (.ofNat n) => if n ≤ maxFill then .ok n else .error (.sizeTooLarge (s.text v))
  | _ => .error (.badSize (s.text v))

/-- An array. -/
def array : Value → Except Failure (Ref .arrays)
  | .array a => .ok a
  | _ => .error .notAnArray

/-- A key of an array. -/
def key (v : Value) : Except Failure String :=
  match v.key? with
  | some k => .ok k
  | none => .error .badKey

/-- The least integer of 64 bits. -/
def leastInteger : Int := -Int.ofNat (Nat.pow 2 63)

/-- The greatest integer of 64 bits. -/
def greatestInteger : Int := Int.ofNat (Nat.pow 2 63) - 1

/-- The greatest integer that is not greater than a number, within 64 bits. What is no number
counts as zero. -/
def floorInteger (x : Float) : Int :=
  match Decimal.Binary.ofFloat x with
  | .infinite true => leastInteger
  | .infinite false => greatestInteger
  | b => max leastInteger (min greatestInteger (b.floor?.getD 0))

/-- The nearest double to an integer. -/
def ofInteger (n : Int) : Float :=
  if n < 0 then -(Decimal.nearest n.natAbs 0) else Decimal.nearest n.natAbs 0

/-- The integer between two bounds, both included, that a draw stands for. -/
def pick (draw : Nat) (least greatest : Int) : Int :=
  least + Int.ofNat (draw % (greatest - least + 1).toNat)

/-- The integers between the bounds are drawn, all of them and no others. -/
theorem exists_pick_eq_iff {least greatest : Int} (h : least ≤ greatest) (n : Int) :
    (∃ draw, pick draw least greatest = n) ↔ least ≤ n ∧ n ≤ greatest := by
  constructor
  · rintro ⟨draw, rfl⟩
    have hlt := Nat.mod_lt draw (show 0 < (greatest - least + 1).toNat by omega)
    unfold pick
    rw [Int.ofNat_eq_natCast]
    omega
  · rintro ⟨hle, hge⟩
    refine ⟨(n - least).toNat, ?_⟩
    have hlt : (n - least).toNat < (greatest - least + 1).toNat := by omega
    unfold pick
    rw [Nat.mod_eq_of_lt hlt, Int.ofNat_eq_natCast]
    omega

/-- A line without the newlines and carriage returns at its end. -/
def stripLineEnd (s : String) : String :=
  String.ofList (s.toList.reverse.dropWhile (fun c => c = '\n' || c = '\r')).reverse

/-- Lifts a check of the arguments. -/
def check {α : Type} : Except Failure α → Act α
  | .ok a => pure a
  | .error failure => throw failure

/-- The store as it is. -/
def store : Act Store := fun m => .ok m.store m

/-- A new array with the given entries. -/
def newArray (t : Table Value) : Act Value := fun m =>
  let ⟨store, current, depths, host⟩ := m
  let (ref, store) := store.addArray t
  .ok (.array ref) ⟨store, current, depths, host⟩

/-- Puts a value into an array. -/
def putEntry (a : Ref .arrays) (k : String) (v : Value) : Act Unit := fun m =>
  let ⟨store, current, depths, host⟩ := m
  .ok () ⟨store.putEntry a k v, current, depths, host⟩

/-- An array of so many equal values. -/
def filled (n : Nat) (v : Value) : Act Value := newArray (.ofList (List.replicate n v))

/-- The next line of the input, or `nulo` at its end. A line that is no text is used up all the
same. -/
def nextLine : Act Value := fun m =>
  let (line, rest) := Text.Utf8.splitLine m.host.input
  let m := { m with host := { m.host with input := rest } }
  if line.isEmpty then .ok .nil m
  else
    match Text.Utf8.decode line with
    | .ok s => .ok (.string (stripLineEnd s)) m
    | .error _ => .error .unreadableInput m

/-- What the clock shows. -/
def nextTime : Act Value := fun m =>
  .ok (.number (ofInteger m.host.clock.next))
    { m with host := { m.host with clock := m.host.clock.rest } }

/-- A random integer. -/
def nextRandom (least greatest : Int) : Act Value := fun m =>
  .ok (.number (ofInteger (pick m.host.draws.next least greatest)))
    { m with host := { m.host with draws := m.host.draws.rest } }

/-- How many entries an array has, or how many characters a text. -/
def sizeOf (s : Store) : Value → Except Failure Nat
  | .array a => .ok (s.table a).size
  | .string text => .ok text.length
  | v => .error (.noSize v.type)

/-- What a builtin function does with its arguments. -/
def call (b : Builtin) (arguments : List Value) : Act Value := do
  match b, arguments with
  | clock, [] => nextTime
  | power, [base, exponent] =>
    let x ← check (number "Base" base)
    let y ← check (number "Exponent" exponent)
    return .number (Float.pow x y)
  | readLine, [] => nextLine
  | size, [v] =>
    let n ← check (sizeOf (← store) v)
    return .number (ofInteger n)
  | push, [target, v] =>
    let a ← check (array target)
    let s ← store
    putEntry a (Decimal.naturalText (s.table a).size) v
    return target
  | insert, [target, place, v] =>
    let a ← check (array target)
    let k ← check (key place)
    putEntry a k v
    return target
  | hasKey, [target, place] =>
    let a ← check (array target)
    let k ← check (key place)
    return .boolean (((← store).table a).contains k)
  | randomInteger, [low, high] =>
    let x ← check (number "Minimum" low)
    let y ← check (number "Maximum" high)
    if floorInteger y < floorInteger x then throw .emptyRange
    else nextRandom (floorInteger x) (floorInteger y)
  | fillList, [length, v] =>
    let n ← check (count (← store) length)
    filled n v
  | newVector, [length] =>
    let n ← check (count (← store) length)
    filled n .nil
  | newVector, [length, v] =>
    let n ← check (count (← store) length)
    filled n v
  | _, _ => throw (.argumentCount b.arity arguments.length)

end Builtin

end Roteiro
