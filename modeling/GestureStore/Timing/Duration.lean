/-
How long something took.

Running totals are kept over any durations that can be added, compared and shared
out; the program keeps them in milliseconds of double precision.  Clocks count ticks,
of which a second has 2 ^ 20.
-/
import GestureStore.Number.Double

namespace GestureStore

/-- Durations to keep totals of. -/
class Duration (δ : Type) where
  /-- No time. -/
  zero : δ
  /-- One duration after the other. -/
  add : δ → δ → δ
  /-- The first is shorter than the second. -/
  shorter : δ → δ → Bool
  /-- A duration that is shorter than some other can be the shortest of several. -/
  bounded : δ → Bool
  /-- One of a number of equal shares. -/
  share : δ → Nat → δ
  /-- The time from one reading of a clock to another. -/
  elapsed : Int → Int → δ

/-- The number of ticks in a second. -/
def ticksPerSecond : Nat := Nat.pow 2 20

/-- A reading of a clock in seconds. -/
def seconds (ticks : Int) : Float := floatOfInteger ticks / floatOfInteger ticksPerSecond

instance : Duration Float where
  zero := 0
  add := (· + ·)
  shorter x y := decide (x < y)
  bounded x := decide (x < floatOfDecimal false 1 (decimalReach + 1))
  share x n := x / floatOfInteger n
  elapsed start stop := (seconds stop - seconds start) * 1000

end GestureStore
