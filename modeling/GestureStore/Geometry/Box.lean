/-
Axis-aligned boxes.

A box is its four sides; nothing keeps the left one to the left.  The union takes
the smaller of the two lower sides and the larger of the two upper ones, and keeps
the first box's side where the two cannot be told apart by order.

Sides are doubles where a box surrounds points, and numbers of any kind where it is
given by its sides.  What is measured of a box is a double in either case, and there
is none where an exact number is too large for one.
-/
import GestureStore.Fault
import GestureStore.Number.Quantity

namespace GestureStore

/-- Numbers that can be sides of boxes. -/
class Side (σ : Type) where
  /-- The first is less than the second. -/
  lt : σ → σ → Bool
  /-- Both are equal as numbers. -/
  same : σ → σ → Bool
  /-- The side as a double. -/
  place : σ → Except Fault Float
  /-- How far the second is above the first. -/
  extent : σ → σ → Except Fault Float
  /-- The number half way between two sides. -/
  middle : σ → σ → Except Fault Float

instance : Side Float where
  lt x y := decide (x < y)
  same x y := x == y
  place x := .ok x
  extent x y := .ok (y - x)
  middle x y := .ok ((x + y) / 2)

/-- A measure that may be too large. -/
def measured (x : Option Float) : Except Fault Float := x.elim (.error .outOfRange) .ok

instance : Side Quantity where
  lt := Quantity.lt
  same := Quantity.same
  place x := measured x.toFloat?
  extent x y := measured ((y.sub? x).bind Quantity.toFloat?)
  middle x y := measured ((x.add? y).bind Quantity.half?)

/-- The sides of an axis-aligned box. -/
structure Box (σ : Type) where
  /-- The least x. -/
  left : σ
  /-- The least y. -/
  top : σ
  /-- The greatest x. -/
  right : σ
  /-- The greatest y. -/
  bottom : σ

namespace Box

variable [Side σ]

/-- The second number where it is smaller, else the first. -/
def lesser (x y : σ) : σ := if Side.lt y x then y else x

/-- The second number where it is greater, else the first. -/
def greater (x y : σ) : σ := if Side.lt x y then y else x

/-- The horizontal extent. -/
def width (b : Box σ) : Except Fault Float := Side.extent b.left b.right

/-- The vertical extent. -/
def height (b : Box σ) : Except Fault Float := Side.extent b.top b.bottom

/-- The point half way between opposite sides. -/
def center (b : Box σ) : Except Fault (Float × Float) := do
  return (← Side.middle b.left b.right, ← Side.middle b.top b.bottom)

/-- The sides as doubles: left, top, right and bottom. -/
def places (b : Box σ) : Except Fault (List Float) :=
  [b.left, b.top, b.right, b.bottom].mapM Side.place

/-- The box around two boxes. -/
def union (a b : Box σ) : Box σ where
  left := lesser a.left b.left
  top := lesser a.top b.top
  right := greater a.right b.right
  bottom := greater a.bottom b.bottom

/-- The sides are equal as numbers. -/
def same (a b : Box σ) : Bool :=
  Side.same a.left b.left && Side.same a.top b.top && Side.same a.right b.right
    && Side.same a.bottom b.bottom

end Box
end GestureStore
