/-!
# Bytes as text

Files and standard input are bytes; programs are texts. `Utf8.decode` reads bytes as UTF-8 and
either gives all their characters or the first place where they are not well formed, with the
number of bytes that make up the broken sequence, unless the input ends inside it.

The admissible sequences are those of the standard: no overlong forms, no surrogates, nothing
beyond the last code point. All three are excluded by the range of the second byte, which
depends on the first (`Utf8.lead?`).

`Utf8.splitLine` cuts off the first line of an input.
-/

namespace Roteiro

namespace Text

namespace Utf8

/-- Where and how a sequence of bytes fails to be UTF-8. -/
inductive Fault where
  /-- The `length` bytes from `index` on start no character. -/
  | invalid (index length : Nat)
  /-- The input ends inside the character that starts at `index`. -/
  | incomplete (index : Nat)
  deriving DecidableEq, Repr

/-- The wording of a fault. -/
def Fault.message : Fault → String
  | .invalid index length => s!"invalid utf-8 sequence of {length} bytes from index {index}"
  | .incomplete index => s!"incomplete utf-8 byte sequence from index {index}"

/-- What a leading byte announces: how many bytes follow it, the range of the first of them,
and the high bits of the character. -/
structure Lead where
  extra : Nat
  low : UInt8
  high : UInt8
  bits : Nat

/-- The announcement of a leading byte of a sequence of two to four bytes. -/
def lead? (b : UInt8) : Option Lead :=
  if b < 0xC2 then none
  else if b < 0xE0 then some ⟨1, 0x80, 0xBF, b.toNat - 0xC0⟩
  else if b = 0xE0 then some ⟨2, 0xA0, 0xBF, 0⟩
  else if b = 0xED then some ⟨2, 0x80, 0x9F, 0xD⟩
  else if b < 0xF0 then some ⟨2, 0x80, 0xBF, b.toNat - 0xE0⟩
  else if b = 0xF0 then some ⟨3, 0x90, 0xBF, 0⟩
  else if b < 0xF4 then some ⟨3, 0x80, 0xBF, b.toNat - 0xF0⟩
  else if b = 0xF4 then some ⟨3, 0x80, 0x8F, 4⟩
  else none

/-- A byte inside a sequence, after the second. -/
def isContinuation (b : UInt8) : Bool := 0x80 ≤ b && b ≤ 0xBF

/-- High bits extended by the six bits of a continuation byte. -/
def extend (bits : Nat) (b : UInt8) : Nat := bits * 64 + b.toNat % 64

/-- Reads the bytes from `index` on, behind the characters `done`, latest first. -/
def decodeFrom (done : List Char) (index : Nat) : List UInt8 → Except Fault (List Char)
  | [] => .ok done.reverse
  | a :: r₁ =>
    if a < 0x80 then decodeFrom (Char.ofNat a.toNat :: done) (index + 1) r₁
    else match lead? a with
      | none => .error (.invalid index 1)
      | some l =>
        match r₁ with
        | [] => .error (.incomplete index)
        | b :: r₂ =>
          if b < l.low || l.high < b then .error (.invalid index 1)
          else if l.extra = 1 then
            decodeFrom (Char.ofNat (extend l.bits b) :: done) (index + 2) r₂
          else match r₂ with
            | [] => .error (.incomplete index)
            | c :: r₃ =>
              if !isContinuation c then .error (.invalid index 2)
              else if l.extra = 2 then
                decodeFrom (Char.ofNat (extend (extend l.bits b) c) :: done) (index + 3) r₃
              else match r₃ with
                | [] => .error (.incomplete index)
                | d :: r₄ =>
                  if !isContinuation d then .error (.invalid index 3)
                  else
                    let code := extend (extend (extend l.bits b) c) d
                    decodeFrom (Char.ofNat code :: done) (index + 4) r₄

/-- The text that the bytes spell, or the first fault. -/
def decode (bytes : List UInt8) : Except Fault String :=
  (decodeFrom [] 0 bytes).map String.ofList

/-- The first line of an input, its newline included, and what follows it. -/
def splitLine : List UInt8 → List UInt8 × List UInt8
  | [] => ([], [])
  | b :: rest =>
    if b = 0x0A then ([b], rest)
    else
      let (line, after) := splitLine rest
      (b :: line, after)

end Utf8

end Text

end Roteiro
