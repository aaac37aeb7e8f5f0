/-
Numbers as they are given: integers of any size, and doubles.

An integer stays exact as long as it meets other integers.  Where it meets a double
it is rounded to one, and it may be too large for that.  Comparisons never round: an
integer and a double are compared by what they stand for.
-/
import GestureStore.Number.Double

namespace GestureStore

/-- A number as it was given. -/
inductive Quantity where
  /-- An integer of any size. -/
  | whole (i : Int)
  /-- A double precision number. -/
  | real (x : Float)

namespace Quantity

/-! ### Comparing -/

/-- How an integer compares with a double; not at all with what is no number. -/
def compareWhole (i : Int) (x : Float) : Option Ordering :=
  match Double.ofFloat x with
  | .nan => none
  | .infinity negative => some (if negative then .gt else .lt)
  | .finite negative m q =>
    some (compare (i * (Nat.pow 2 (-q).toNat : Nat)) (Double.signed negative (m * Nat.pow 2 q.toNat)))

/-- The first is less than the second. -/
def lt : Quantity → Quantity → Bool
  | whole i, whole j => decide (i < j)
  | whole i, real y => compareWhole i y == some .lt
  | real x, whole j => compareWhole j x == some .gt
  | real x, real y => decide (x < y)

/-- Both are equal as numbers. -/
def same : Quantity → Quantity → Bool
  | whole i, whole j => i == j
  | whole i, real y => compareWhole i y == some .eq
  | real x, whole j => compareWhole j x == some .eq
  | real x, real y => x == y

/-! ### Rounding and computing -/

/-- An integer as a double, unless it is too large for one. -/
def rounded? (i : Int) : Option Float :=
  let x := floatOfInteger i
  if x.isInf then none else some x

/-- The number as a double, unless it is too large for one. -/
def toFloat? : Quantity → Option Float
  | whole i => rounded? i
  | real x => some x

/-- Half of the number as a double, rounded once, unless it is too large for one. -/
def half? : Quantity → Option Float
  | whole i =>
    let x := floatOfDecimal (decide (i < 0)) (5 * i.natAbs) (-1)
    if x.isInf then none else some x
  | real x => some (x / 2)

/-- The sum: exact for integers, else in double precision. -/
def add? : Quantity → Quantity → Option Quantity
  | whole i, whole j => some (whole (i + j))
  | a, b => do return real ((← a.toFloat?) + (← b.toFloat?))

/-- The difference: exact for integers, else in double precision. -/
def sub? : Quantity → Quantity → Option Quantity
  | whole i, whole j => some (whole (i - j))
  | a, b => do return real ((← a.toFloat?) - (← b.toFloat?))

end Quantity
end GestureStore
