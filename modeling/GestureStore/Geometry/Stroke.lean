/-
Strokes: one continuous path of timestamped points.

A stroke has at least one point, and its coordinates are finite.  Both are part of
the type, so whatever is stored, written or measured need not ask again.  Two
strokes are equal when they hold the same bits.
-/
import GestureStore.Fault
import GestureStore.Geometry.Box
import GestureStore.Number.Single

namespace GestureStore

/-- A point of a stroke: where the pen was, and when. -/
structure Point where
  /-- The horizontal coordinate. -/
  x : Single
  /-- The vertical coordinate. -/
  y : Single
  /-- The timestamp. -/
  t : Int64
  deriving DecidableEq, Repr

/-- Both coordinates are finite. -/
def Point.isFinite (p : Point) : Bool := p.x.isFinite && p.y.isFinite

/-- A path with at least one point and finite coordinates. -/
structure Stroke where
  /-- The points in the order they were drawn. -/
  points : List Point
  /-- There is one. -/
  nonempty : points ≠ []
  /-- All of them are somewhere. -/
  finite : points.all Point.isFinite = true
  deriving DecidableEq

namespace Stroke

/-- The stroke through points; a stroke without any is refused before one with a bad one. -/
def ofPoints (points : List Point) : Except Fault Stroke :=
  if nonempty : points ≠ [] then
    if finite : points.all Point.isFinite = true then .ok { points, nonempty, finite }
    else .error (.input .notFinite)
  else .error (.input .noPoints)

/-- The number of points. -/
def size (s : Stroke) : Nat := s.points.length

/-- The box of a single point. -/
def pointBox (p : Point) : Box Float := ⟨p.x.toFloat, p.y.toFloat, p.x.toFloat, p.y.toFloat⟩

/-- The box around the points. -/
def box (s : Stroke) : Box Float :=
  match s.points with
  | [] => ⟨0, 0, 0, 0⟩
  | p :: rest => rest.foldl (fun b q => b.union (pointBox q)) (pointBox p)

/-- The distance between two points. -/
def distance (p q : Point) : Float :=
  let dx := q.x.toFloat - p.x.toFloat
  let dy := q.y.toFloat - p.y.toFloat
  (dx * dx + dy * dy).sqrt

/-- The length of the path along its points. -/
def length (s : Stroke) : Float :=
  (List.zipWith distance s.points s.points.tail).foldl (· + ·) 0

/-- How a stroke is shown. -/
def shown (s : Stroke) : Text := Text.of "GestureStroke(points=" ++ Text.natural s.size ++ Text.of ")"

end Stroke
end GestureStore
