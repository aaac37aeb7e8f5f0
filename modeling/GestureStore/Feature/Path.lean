/-
Paths, and walking along them.

A path is a list of points in a space with a length.  Resampling puts `n` points on
it that are evenly spaced along its length: each target distance falls into the last
segment that begins no later, and the point divides that segment in proportion.  A
path without extent has all its samples in its first point.
-/
import GestureStore.Feature.Scalar

namespace GestureStore

/-- Points that can be moved along straight lines. -/
class Space (V : Type) (α : outParam Type) where
  /-- The sum of two vectors. -/
  add : V → V → V
  /-- The vector from the second point to the first. -/
  sub : V → V → V
  /-- A multiple of a vector. -/
  scale : α → V → V
  /-- The length of a vector. -/
  norm : V → α

/-- A point or vector in the plane. -/
structure Vec (α : Type) where
  /-- The horizontal part. -/
  x : α
  /-- The vertical part. -/
  y : α

instance [Scalar α] : Space (Vec α) α where
  add v w := ⟨v.x + w.x, v.y + w.y⟩
  sub v w := ⟨v.x - w.x, v.y - w.y⟩
  scale k v := ⟨k * v.x, k * v.y⟩
  norm v := Scalar.sqrt (v.x * v.x + v.y * v.y)

/-- A point with any number of coordinates. -/
structure Row (α : Type) where
  /-- The coordinates. -/
  columns : List α

instance [Scalar α] : Space (Row α) α where
  add v w := ⟨List.zipWith (· + ·) v.columns w.columns⟩
  sub v w := ⟨List.zipWith (· - ·) v.columns w.columns⟩
  scale k v := ⟨v.columns.map (k * ·)⟩
  norm v := Scalar.sqrt (Scalar.sum (v.columns.map fun c => c * c))

namespace Path

variable [Scalar α] [Space V α]

/-- A straight piece of a path. -/
structure Segment (V α : Type) where
  /-- Where it begins. -/
  start : V
  /-- The vector to its end. -/
  step : V
  /-- Its length. -/
  length : α
  /-- The length of the path before it. -/
  before : α

/-- The segments from `start` on, given the length of the path before it. -/
def segmentsFrom (start : V) (before : α) : List V → List (Segment V α)
  | [] => []
  | next :: rest =>
    let step := Space.sub next start
    let length := Space.norm step
    ⟨start, step, length, before⟩ :: segmentsFrom next (before + length) rest

/-- The length of the path up to its end, given its length before the segments. -/
def lengthFrom (before : α) : List (Segment V α) → α
  | [] => before
  | s :: rest => lengthFrom (s.before + s.length) rest

/-- Lengths below this count as none. -/
def leastLength : α := Scalar.ofDecimal 1 8

/-- The `i`-th of `n` distances spread evenly from zero to `total`; the last one is `total` itself. -/
def target (total : α) (n i : Nat) : α :=
  if i + 1 = n ∧ 1 < n then total
  else if n ≤ 1 then Scalar.ofInt i * total
  else Scalar.ofInt i * (total / Scalar.ofInt (n - 1 : Nat))

/-- The last of the segments that begins no later than a distance; `current` is the best so far. -/
def segmentAt (distance : α) (current : Segment V α) : List (Segment V α) → Segment V α
  | [] => current
  | s :: rest => if Scalar.lt distance s.before then current else segmentAt distance s rest

/-- The point of a segment at a distance along the path. -/
def pointAt (distance : α) (s : Segment V α) : V :=
  let length := if Scalar.lt leastLength s.length then s.length else leastLength
  Space.add s.start (Space.scale ((distance - s.before) / length) s.step)

/-- `n` points spread evenly along the path through `first` and the points of `rest`. -/
def resample (first : V) (rest : List V) (n : Nat) : List V :=
  match segmentsFrom first Scalar.zero rest with
  | [] => List.replicate n first
  | s :: later =>
    let total := lengthFrom Scalar.zero (s :: later)
    if Scalar.lt total leastLength then List.replicate n first
    else
      (List.range n).map fun i =>
        let distance := target total n i
        pointAt distance (segmentAt distance s later)

end Path
end GestureStore
