import Transclude.Text.Basic

/-!
# UTF-8

Bytes are read as text one character at a time. The first fault ends the
reading: `Utf8.Fault` says at which byte it starts, how many bytes it covers and
of which kind it is. A sequence that could still be completed when the bytes end
is told apart from one that cannot.

* `Utf8.decode`: the text, or the first fault;
* `Utf8.encode`: the bytes of a text.
-/

namespace Transclude

namespace Utf8

/-- What is wrong with a byte sequence. -/
inductive FaultKind where
  /-- No character starts with this byte. -/
  | invalidStart
  /-- A byte does not continue the character that was begun. -/
  | invalidContinuation
  /-- The bytes end inside a character. -/
  | unexpectedEnd
  deriving DecidableEq, Repr

/-- The place and the kind of the first fault of a byte sequence. -/
structure Fault where
  /-- Offset of the first byte at fault. -/
  start : Nat
  /-- Number of bytes at fault. -/
  width : Nat
  /-- The first byte at fault. -/
  byte : UInt8
  kind : FaultKind
  deriving DecidableEq, Repr

/-- Whether a byte can stand inside a character but not at its start. -/
def isContinuation (b : UInt8) : Bool :=
  0x80 ≤ b && b < 0xC0

/-- The number of bytes that a character with this first byte takes. -/
def sequenceLength? (b : UInt8) : Option Nat :=
  if b < 0x80 then some 1
  else if b < 0xC2 then none
  else if b < 0xE0 then some 2
  else if b < 0xF0 then some 3
  else if b < 0xF5 then some 4
  else none

/-- Whether `second` may follow the first byte `first`: beside being a
    continuation it must not make the sequence overlong, a surrogate or too
    great. -/
def secondFits (first second : UInt8) : Bool :=
  isContinuation second &&
    !(first = 0xE0 && second < 0xA0) && !(first = 0xED && 0xA0 ≤ second) &&
    !(first = 0xF0 && second < 0x90) && !(first = 0xF4 && 0x90 ≤ second)

/-- How many bytes at the front of `tail`, at most `need`, continue a character
    that starts with `first`. -/
def continued (first : UInt8) (need : Nat) (tail : List UInt8) : Nat :=
  match need, tail with
  | 0, _ => 0
  | _, [] => 0
  | need + 1, second :: tail =>
    if secondFits first second then 1 + ((tail.take need).takeWhile isContinuation).length
    else 0

/-- The code point that a complete sequence writes. -/
def codePoint (first : UInt8) (tail : List UInt8) : Nat :=
  let lead :=
    match tail.length with
    | 0 => first.toNat
    | 1 => first.toNat % 0x20
    | 2 => first.toNat % 0x10
    | _ => first.toNat % 0x08
  tail.foldl (fun n b => 64 * n + b.toNat % 64) lead

/-- Reads bytes as text; `start` is the offset of the first of them. -/
def decodeFrom (start : Nat) (bytes : List UInt8) : Except Fault Text :=
  match bytes with
  | [] => .ok []
  | first :: tail =>
    match sequenceLength? first with
    | none => .error ⟨start, 1, first, .invalidStart⟩
    | some n =>
      let taken := continued first (n - 1) tail
      if taken = n - 1 then
        match decodeFrom (start + n) (tail.drop taken) with
        | .ok text => .ok (Char.ofNat (codePoint first (tail.take taken)) :: text)
        | .error fault => .error fault
      else if taken = tail.length then .error ⟨start, tail.length + 1, first, .unexpectedEnd⟩
      else .error ⟨start, taken + 1, first, .invalidContinuation⟩
termination_by bytes.length
decreasing_by simp only [List.length_drop, List.length_cons]; omega

/-- The text that the bytes write, or the first fault. -/
def decode (bytes : List UInt8) : Except Fault Text :=
  decodeFrom 0 bytes

/-- The bytes of a text. -/
def encode (t : Text) : List UInt8 :=
  t.flatMap String.utf8EncodeChar

end Utf8

end Transclude
