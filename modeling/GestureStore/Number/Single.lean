/-
Single precision numbers, held as their bit patterns.

Coordinates and feature vectors are stored in the binary32 format.  A pattern is
kept as it is, so that storing, writing and reading back cannot change it; it is
widened to double precision where something is computed, and a computed number is
narrowed to the nearest pattern, ties going to the even one.  Widening is exact,
so narrowing takes a widened number back to its pattern.
-/
import GestureStore.Number.Double

namespace GestureStore

/-- A number in the binary32 format. -/
structure Single where
  /-- The bit pattern: one sign bit, eight of exponent, 23 of fraction. -/
  bits : UInt32
  deriving DecidableEq, Repr

namespace Single

/-- The exponent field. -/
def exponentField (s : Single) : Nat := s.bits.toNat / Nat.pow 2 23 % Nat.pow 2 8

/-- The fraction field. -/
def fractionField (s : Single) : Nat := s.bits.toNat % Nat.pow 2 23

/-- Neither an infinity nor a NaN. -/
def isFinite (s : Single) : Bool := s.exponentField != 255

/-- Not a number. -/
def isNaN (s : Single) : Bool := s.exponentField == 255 && s.fractionField != 0

/-- The binary64 pattern, without its sign, of a binary32 pattern without its sign. -/
def widenMagnitude (n : Nat) : Nat :=
  let e := n / Nat.pow 2 23
  let f := n % Nat.pow 2 23
  if e = 255 then 2047 * Nat.pow 2 52 + f * Nat.pow 2 29
  else if e = 0 then
    if f = 0 then 0
    else
      -- A subnormal number gets a leading bit of its own in the wider format.
      let k := Nat.log2 f
      (k + 874) * Nat.pow 2 52 + (f - Nat.pow 2 k) * Nat.pow 2 (52 - k)
  else (e + 896) * Nat.pow 2 52 + f * Nat.pow 2 29

/-- The binary32 pattern, without its sign, nearest to a binary64 pattern without its sign. -/
def narrowMagnitude (n : Nat) : Nat :=
  let e := n / Nat.pow 2 52
  let f := n % Nat.pow 2 52
  if e = 2047 then (if f = 0 then 255 * Nat.pow 2 23 else 255 * Nat.pow 2 23 + Nat.pow 2 22)
  else
    let significand := if e = 0 then f else Nat.pow 2 52 + f
    let e := max e 1
    -- Below the exponent 897 the narrow format is subnormal: its spacing no longer shrinks.
    let excess := 29 + (897 - e)
    let kept := roundDiv significand (Nat.pow 2 excess)
    min (kept + (e - 897) * Nat.pow 2 23) (255 * Nat.pow 2 23)

/-- The same number in double precision. -/
def widen (s : Single) : UInt64 :=
  let n := s.bits.toNat
  UInt64.ofNat (n / Nat.pow 2 31 * Nat.pow 2 63 + widenMagnitude (n % Nat.pow 2 31))

/-- The nearest number in single precision; an infinity where there is none as large. -/
def narrow (bits : UInt64) : Single :=
  let n := bits.toNat
  ⟨UInt32.ofNat (n / Nat.pow 2 63 * Nat.pow 2 31 + narrowMagnitude (n % Nat.pow 2 63))⟩

/-- The number to compute with. -/
def toFloat (s : Single) : Float := Float.ofBits s.widen

/-- The number to store. -/
def ofFloat (x : Float) : Single := narrow x.toBits

end Single
end GestureStore
