/-
Byte strings, and numbers written in network order.

A number of `k` bytes is written with its most significant byte first.  Signed
numbers use two's complement, so both readings of the same bytes differ by a
multiple of `256 ^ k`.
-/
import GestureStore.Text

namespace GestureStore

/-- A byte string. -/
abbrev Bytes := List UInt8

namespace Bytes

/-- The `k` low bytes of a number, the most significant one first. -/
def ofNat : Nat → Nat → Bytes
  | 0, _ => []
  | k + 1, n => UInt8.ofNat (n / Nat.pow 256 k) :: ofNat k n

/-- The number that bytes denote, the first of them being the most significant. -/
def toNat (b : Bytes) : Nat := b.foldl (fun n x => n * 256 + x.toNat) 0

/-- The two's complement form of an integer in `k` bytes. -/
def ofInt (k : Nat) (i : Int) : Bytes := ofNat k (i % (Nat.pow 256 k : Nat)).toNat

/-- The integer in two's complement form: from half the range up, a number stands for a negative. -/
def toInt (b : Bytes) : Int :=
  if 2 * toNat b < Nat.pow 256 b.length then (toNat b : Int) else (toNat b : Int) - (Nat.pow 256 b.length : Nat)

/-- The integers that `k` bytes can hold in two's complement. -/
def fits (k : Nat) (i : Int) : Bool :=
  decide (-(Nat.pow 256 k : Nat) ≤ 2 * i) && decide (2 * i < (Nat.pow 256 k : Nat))

/-- Two small hexadecimal digits for each byte. -/
def hex (b : Bytes) : Text := b.flatMap fun x => Text.lowerHex 2 x.toNat

end Bytes

end GestureStore
