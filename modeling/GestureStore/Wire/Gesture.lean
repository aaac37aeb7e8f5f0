/-
The stored form of a gesture.

A gesture is its identifier in 64 bits, the number of its strokes in 32, and its
strokes; a stroke is the number of its points in 32 bits and its points.  A gesture
may have no strokes, a stroke has at least one point.
-/
import GestureStore.Geometry.Gesture
import GestureStore.Wire.Reader
import GestureStore.Wire.Writer

namespace GestureStore

namespace Stroke

/-- The values that make up a stored stroke. -/
def parts (s : Stroke) : List (Except Fault Bytes) :=
  [Writer.int s.size, .ok (Writer.points s.points)]

/-- Read a stroke. -/
def read : Reader Stroke := do
  let n ← Reader.count (Text.of "point count")
  if n = 0 then Reader.fail (.decode .noPoints)
  else
    Reader.ofExcept (ofPoints (← Reader.points n (Text.of "stroke points")))

end Stroke

namespace Gesture

/-- The values that make up a stored gesture. -/
def parts (g : Gesture) : List (Except Fault Bytes) :=
  Writer.long g.id :: Writer.int g.strokes.length :: g.strokes.flatMap Stroke.parts

/-- Write a gesture. -/
def write (g : Gesture) : Written := Writer.all g.parts

/-- Read a gesture. -/
def read : Reader Gesture := do
  let id ← Reader.long (Text.of "gesture id")
  let n ← Reader.count (Text.of "stroke count")
  let strokes ← Stroke.read.times n
  return { id, strokes }

end Gesture
end GestureStore
