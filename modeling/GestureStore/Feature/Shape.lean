/-
The shape of a single path, as a vector.

The path is resampled to a fixed number of points, moved so that their centroid is
the origin, and scaled so that the vector of all coordinates has length one.  Where
rotation shall not count, the centred points are first turned about the origin until
the first of them lies in the direction of the x axis.  Points that nearly coincide
have no shape: their vector is left as short as it is.
-/
import GestureStore.Feature.Path
import GestureStore.Fault

namespace GestureStore
namespace Shape

variable [Scalar α]

/-- The mean of the points, coordinate by coordinate. -/
def centroid (points : List (Vec α)) : Vec α :=
  let n : α := Scalar.ofInt points.length
  ⟨Scalar.sum (points.map Vec.x) / n, Scalar.sum (points.map Vec.y) / n⟩

/-- The points as seen from their centroid. -/
def centered (points : List (Vec α)) : List (Vec α) :=
  let c := centroid points
  points.map fun p => Space.sub p c

/-- A point turned about the origin, given the cosine and the sine of the angle. -/
def turned (cos sin : α) (p : Vec α) : Vec α := ⟨p.x * cos + p.y * -sin, p.x * sin + p.y * cos⟩

/-- The points turned so that the first lies in the direction of the x axis. -/
def straightened (points : List (Vec α)) : List (Vec α) :=
  match points with
  | [] => []
  | first :: _ =>
    let angle : α := Scalar.atan2 first.y first.x
    points.map (turned (Scalar.cos (-angle)) (Scalar.sin (-angle)))

/-- The coordinates of the points, point by point. -/
def flattened (points : List (Vec α)) : List α := points.flatMap fun p => [p.x, p.y]

/-- The length of a vector with any number of coordinates. -/
def norm (v : List α) : α := Scalar.sqrt (Scalar.sum (v.map fun c => c * c))

/-- A vector that is no longer than this is not scaled. -/
def leastNorm : α := Scalar.ofDecimal 1 12

/-- The vector scaled to length one, unless it is hardly longer than zero. -/
def normalized (v : List α) : List α :=
  let n := norm v
  if Scalar.lt leastNorm n then v.map (· / n) else v

/-- The vector of resampled points. -/
def ofSamples (orientation : Option Orientation) (samples : List (Vec α)) : List α :=
  let points := centered samples
  normalized (flattened (if orientation = some .invariant then straightened points else points))

/-- The vector of a path that begins in `first`, by `n` samples. -/
def features (orientation : Option Orientation) (n : Nat) (first : Vec α) (rest : List (Vec α)) :
    List α :=
  ofSamples orientation (Path.resample first rest n)

/-! ### Points as they are given -/

/-- The samples of a list of points, for what may be no count: there must be a point to begin with. -/
def resampled [Space V α] (points : List V) (n : Option Int) : Except Fault (List V) :=
  match points, n with
  | [], _ => .error .badIndex
  | _, none => .error .wrongKind
  | first :: rest, some n => if n < 0 then .error .badValue else .ok (Path.resample first rest n.toNat)

/-- A row of two coordinates as a point of the plane. -/
def planar? (row : Row α) : Option (Vec α) :=
  match row.columns with
  | [x, y] => some ⟨x, y⟩
  | _ => none

/-- The rows as seen from their mean. -/
def centeredRows (rows : List (Row α)) : List (Row α) :=
  let n : α := Scalar.ofInt rows.length
  let mean (column : Nat) : α := Scalar.sum (rows.map fun r => r.columns.getD column Scalar.zero) / n
  rows.map fun r => ⟨r.columns.mapIdx fun column c => c - mean column⟩

/--
The vector of rows with any number of columns, for what may be no count.

Only in the plane, and only where there is a first sample, is there anything to turn.
-/
def sampled (orientation : Option Orientation) (rows : List (Row α)) (n : Option Int) :
    Except Fault (List α) := do
  let turns := orientation == some .invariant
  match rows.mapM planar? with
  | some points =>
    let samples ← resampled points n
    if samples.isEmpty && turns then .error .badIndex else return ofSamples orientation samples
  | none =>
    let samples ← resampled rows n
    let width := (samples.map fun r => r.columns.length).headD 0
    if !turns then return normalized ((centeredRows samples).flatMap Row.columns)
    else .error (if width < 2 then .badIndex else .badValue)

end Shape
end GestureStore
