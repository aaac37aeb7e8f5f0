/-
Rounding a quotient to the nearest integer.

Every rounding in the program is this one: to the nearest, and to the even
neighbour where both are equally near.  Exponents of two and of ten are brought
into a numerator and a denominator first, so nothing is lost before the rounding.
-/
namespace GestureStore

/-- The integer nearest to `n / d`, the even one of two that are equally near. -/
def roundDiv (n d : Nat) : Nat :=
  let q := n / d
  let r := n % d
  if 2 * r < d then q else if d < 2 * r then q + 1 else q + q % 2

/-- The number of decimal digits of a natural number; zero has one. -/
def decimalLength (n : Nat) : Nat := (Nat.toDigits 10 n).length

/-- A non-negative rational number as a numerator over a positive denominator. -/
structure Ratio where
  /-- The numerator. -/
  num : Nat
  /-- The denominator. -/
  den : Nat

namespace Ratio

/-- The number `m · 2 ^ q`. -/
def ofBinary (m : Nat) (q : Int) : Ratio :=
  ⟨m * Nat.pow 2 q.toNat, Nat.pow 2 (-q).toNat⟩

/-- The number times a power of ten. -/
def scale (r : Ratio) (k : Int) : Ratio :=
  ⟨r.num * Nat.pow 10 k.toNat, r.den * Nat.pow 10 (-k).toNat⟩

/-- The nearest integer, the even one of two that are equally near. -/
def round (r : Ratio) : Nat := roundDiv r.num r.den

/-- The exponent of the leading decimal digit: the number lies in `[10 ^ e, 10 ^ (e + 1))`. -/
def magnitude (r : Ratio) : Int :=
  if r.den ≤ r.num then (decimalLength (r.num / r.den) : Int) - 1
  else
    let k := decimalLength (r.den / r.num)
    if r.den ≤ r.num * Nat.pow 10 (k - 1) then 1 - (k : Int) else -(k : Int)

end Ratio
end GestureStore
