/-
Gestures: strokes under one identifier.

Identifiers tell gestures apart, whatever their strokes; a gesture that comes
without one takes the next from a supply that never gives the same one twice.
-/
import GestureStore.Geometry.Stroke

namespace GestureStore

/-- Strokes under an identifier. -/
structure Gesture where
  /-- The identifier. -/
  id : Int
  /-- The strokes in the order they were drawn. -/
  strokes : List Stroke
  deriving DecidableEq

/-- A supply of identifiers. -/
structure Supply where
  /-- The identifier that is given next. -/
  next : Int
  deriving DecidableEq, Repr

/-- Take an identifier. -/
def Supply.take (s : Supply) : Int × Supply := (s.next, ⟨s.next + 1⟩)

namespace Gesture

/-- The number of points in all strokes. -/
def size (g : Gesture) : Nat := g.strokes.foldl (fun n s => n + s.size) 0

/-- The gesture with one more stroke. -/
def addStroke (g : Gesture) (s : Stroke) : Gesture := { g with strokes := g.strokes ++ [s] }

/-- The box around all strokes, if there is one. -/
def box (g : Gesture) : Option (Box Float) :=
  match g.strokes with
  | [] => none
  | s :: rest => some (rest.foldl (fun b r => b.union r.box) s.box)

/-- The length of all strokes together. -/
def length (g : Gesture) : Float := g.strokes.foldl (fun sum s => sum + s.length) 0

/-- Both hold the same strokes, bit for bit. -/
def sameGeometry (g h : Gesture) : Bool := decide (g.strokes = h.strokes)

/-- How a gesture is shown. -/
def shown (g : Gesture) : Text :=
  Text.of "Gesture(id=" ++ Text.integer g.id ++ Text.of ", strokes=" ++ Text.natural g.strokes.length
    ++ Text.of ", points=" ++ Text.natural g.size ++ Text.of ")"

end Gesture
end GestureStore
