/-
What a double precision number stands for.

A number in the binary64 format is no number at all, an infinity, or a sign, a
significand and a power of two.  Everything that is printed or truncated starts
from these parts, in exact arithmetic.
-/
import GestureStore.Number.Rounding
import GestureStore.Text

namespace GestureStore

/-- The value of a binary64 number. -/
inductive Double where
  /-- Not a number. -/
  | nan
  /-- An infinity. -/
  | infinity (negative : Bool)
  /-- The number `± significand · 2 ^ exponent`. -/
  | finite (negative : Bool) (significand : Nat) (exponent : Int)
  deriving DecidableEq, Repr

namespace Double

/-- The value of a bit pattern: one sign bit, eleven of exponent, 52 of fraction. -/
def ofBits (bits : Nat) : Double :=
  let negative := decide (bits / Nat.pow 2 63 % 2 = 1)
  let e : Nat := bits / Nat.pow 2 52 % Nat.pow 2 11
  let f : Nat := bits % Nat.pow 2 52
  if e = 2047 then (if f = 0 then infinity negative else nan)
  else if e = 0 then finite negative f (-1074)
  else finite negative (Nat.pow 2 52 + f) ((e : Int) - 1075)

/-- The value of a floating-point number. -/
def ofFloat (x : Float) : Double := ofBits x.toBits.toNat

/-- The magnitude with its sign put back. -/
def signed (negative : Bool) (n : Nat) : Int := if negative then -(n : Int) else n

/-- The integer part, for a finite number. -/
def truncate? : Double → Option Int
  | nan => none
  | infinity _ => none
  | finite negative m q =>
    let r := Ratio.ofBinary m q
    some (signed negative (r.num / r.den))

/-- The greatest integer that is not above a finite number; zero for the others. -/
def floor : Double → Int
  | nan => 0
  | infinity _ => 0
  | finite negative m q =>
    let r := Ratio.ofBinary m q
    if negative then -((r.num + r.den - 1) / r.den : Nat) else (r.num / r.den : Nat)

/-- The nearest integer, the even one of two that are equally near, for a finite number. -/
def nearest? : Double → Option Int
  | nan => none
  | infinity _ => none
  | finite negative m q => some (signed negative (Ratio.ofBinary m q).round)

end Double

/-- Beyond this many decimal places a number is an infinity, or zero. -/
def decimalReach : Int := 400

/--
The double precision number nearest to `± m · 10 ^ e`.

Numbers that are far out of range are settled by the place of their first digit,
so that an exponent of many digits costs nothing.
-/
def floatOfDecimal (negative : Bool) (m : Nat) (e : Int) : Float :=
  let place : Int := decimalLength m + e
  let x :=
    if m = 0 ∨ place < -decimalReach then Float.ofScientific 0 false 0
    else if decimalReach < place then Float.ofScientific 1 false decimalReach.toNat
    else Float.ofScientific m (decide (e < 0)) e.natAbs
  if negative then -x else x

/-- The double precision number nearest to an integer; an infinity where that is too large. -/
def floatOfInteger (i : Int) : Float := floatOfDecimal (decide (i < 0)) i.natAbs 0

end GestureStore
