/-
  This file decodes UTF-8.  What is not well formed is refused,
  and the error tells which bytes are to blame.

  Key definitions include:
    * `Utf8.Fault`
    * `Utf8.Error`
    * `Utf8.Error.message`
    * `Utf8.followers?`
    * `Utf8.Begun`
    * `Utf8.decodeFrom`
    * `Utf8.decode`
-/

------------------------------------------------------------
-- Errors
------------------------------------------------------------

namespace BranchingStory

namespace Utf8

/- What can be wrong with a sequence of bytes. -/
inductive Fault where
  | invalidStart
  | invalidContinuation
  | unexpectedEnd
deriving DecidableEq, Repr

/- The wording of a fault. -/
def Fault.text : Fault → String
  | .invalidStart => "invalid start byte"
  | .invalidContinuation => "invalid continuation byte"
  | .unexpectedEnd => "unexpected end of data"

/- A fault, and the bytes in which it lies. -/
structure Error where
  fault : Fault
  position : Nat
  bytes : List UInt8
deriving DecidableEq, Repr

/- A byte as two hexadecimal digits. -/
def hexByte
    (b : UInt8) : String :=
  String.ofList
    [Nat.digitChar (b.toNat / 16), Nat.digitChar (b.toNat % 16)]

/- The wording of an error: one byte is shown, more are not. -/
def Error.message
    (e : Error) : String :=
  let place :=
    match e.bytes with
    | [b] => s!"byte 0x{hexByte b} in position {e.position}"
    | bs =>
        s!"bytes in position {e.position}-" ++
          toString (e.position + bs.length - 1)
  s!"'utf-8' codec can't decode {place}: {e.fault.text}"

end Utf8

end BranchingStory

------------------------------------------------------------
-- Decoding
------------------------------------------------------------

namespace BranchingStory

namespace Utf8

/- The range of a byte that continues a character. -/
def continuation : Nat × Nat :=
  (0x80, 0xBF)

/-
  The ranges of the bytes that have to follow a first byte.
  They leave out surrogates, code points beyond the last one,
  and characters in more bytes than needed.
-/
def followers?
    (b : UInt8) : Option (List (Nat × Nat)) :=
  let n := b.toNat
  if n < 0x80 then some []
  else if n < 0xC2 then none
  else if n < 0xE0 then some [continuation]
  else if n = 0xE0 then some [(0xA0, 0xBF), continuation]
  else if n = 0xED then some [(0x80, 0x9F), continuation]
  else if n < 0xF0 then some [continuation, continuation]
  else if n = 0xF0 then
    some [(0x90, 0xBF), continuation, continuation]
  else if n < 0xF4 then
    some [continuation, continuation, continuation]
  else if n = 0xF4 then
    some [(0x80, 0x8F), continuation, continuation]
  else none

/-
  A character of which some bytes have been read: the bits in
  them, the bytes themselves, and the ranges of the others.
-/
structure Begun where
  bits : Nat
  bytes : List UInt8
  next : Nat × Nat
  later : List (Nat × Nat)

/- A character after its first byte. -/
def Begun.ofFirst
    (b : UInt8)
    (next : Nat × Nat)
    (later : List (Nat × Nat)) : Begun :=
  { bits := b.toNat % Nat.pow 2 (5 - later.length)
    bytes := [b]
    next := next
    later := later }

/-
  Decode from a position on, either between characters or with
  one that is begun.
-/
def decodeFrom
    (position : Nat) :
    Option Begun → List UInt8 → Except Error (List Char)
  | none, [] => .ok []
  | some g, [] =>
      .error
        ⟨.unexpectedEnd, position - g.bytes.length, g.bytes⟩
  | none, b :: bs =>
      match followers? b with
      | none => .error ⟨.invalidStart, position, [b]⟩
      | some [] => do
          let cs ← decodeFrom (position + 1) none bs
          return Char.ofNat b.toNat :: cs
      | some (next :: later) =>
          decodeFrom (position + 1)
            (some (.ofFirst b next later)) bs
  | some g, b :: bs =>
      let bits := g.bits * 64 + b.toNat % 64
      let bytes := g.bytes ++ [b]
      if b.toNat < g.next.1 ∨ g.next.2 < b.toNat then
        .error
          ⟨.invalidContinuation, position - g.bytes.length,
            g.bytes⟩
      else
        match g.later with
        | [] => do
            let cs ← decodeFrom (position + 1) none bs
            return Char.ofNat bits :: cs
        | next :: later =>
            decodeFrom (position + 1)
              (some ⟨bits, bytes, next, later⟩) bs

/- The text that a sequence of bytes stands for. -/
def decode
    (bs : List UInt8) : Except Error String :=
  (decodeFrom 0 none bs).map String.ofList

end Utf8

end BranchingStory
