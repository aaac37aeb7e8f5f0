/-
A feature vector tied to the gesture it came from.

Where sequence does not matter the vector is the raster of all strokes, and rotation
plays no part.  Where it does, there has to be a single stroke, and the vector is its
shape.  Which policies a vector was extracted under is kept with it, so that a query
under others is found out.
-/
import GestureStore.Feature.Raster
import GestureStore.Feature.Shape
import GestureStore.Geometry.Gesture

namespace GestureStore

/-- A stored feature vector. -/
structure Instance (β : Type) where
  /-- The vector. -/
  vector : List β
  /-- The name it was trained under, if it was. -/
  label : Option Text
  /-- The gesture it was extracted from. -/
  id : Int
  /-- The sequence policy it was extracted under. -/
  sequence : Sequence
  /-- The orientation policy it was extracted under, where that plays a part. -/
  orientation : Option Orientation
  deriving DecidableEq

/-- The number of cells on a side of the raster. -/
def rasterSize : Nat := 16

/-- The number of samples of a shape. -/
def shapeSamples : Nat := 16

/-- The number of features under a sequence policy. -/
def Sequence.vectorLength : Sequence → Nat
  | .invariant => rasterSize * rasterSize
  | .sensitive => shapeSamples * 2

/-- The points of a stroke in the plane. -/
def Stroke.path [Scalar α] (s : Stroke) : List (Vec α) :=
  s.points.map fun p => ⟨Scalar.ofSingle p.x, Scalar.ofSingle p.y⟩

/-- The points of all strokes in the plane. -/
def Gesture.paths [Scalar α] (g : Gesture) : List (List (Vec α)) := g.strokes.map Stroke.path

/-- The shape of a stroke; every stroke has a first point. -/
def Stroke.shape [Scalar α] (orientation : Option Orientation) (s : Stroke) : List α :=
  match (s.path : List (Vec α)) with
  | [] => []
  | first :: rest => Shape.features orientation shapeSamples first rest

namespace Instance

variable [Scalar α] [Stored β α]

/-- The instance of a gesture under a policy. -/
def extract (policy : Policy) (label : Option Text) (g : Gesture) : Except Fault (Instance β) :=
  match g.strokes, policy.sequence with
  | [], _ => .error (.input (.noStrokes g.id))
  | _, .invariant =>
    .ok {
      vector := (Raster.features rasterSize g.paths).map Stored.store
      label
      id := g.id
      sequence := .invariant
      orientation := none }
  | [s], .sensitive =>
    .ok {
      vector := (s.shape policy.orientation).map Stored.store
      label
      id := g.id
      sequence := .sensitive
      orientation := policy.orientation }
  | strokes, .sensitive => .error (.input (.manyStrokes g.id strokes.length))

end Instance
end GestureStore
