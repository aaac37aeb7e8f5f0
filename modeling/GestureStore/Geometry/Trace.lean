/-
Gestures from loose values, and back.

A stroke is read from anything that can be gone through item by item, a point from
anything with exactly three items.  All points of a stroke are converted before
any of them is looked at, and only then are the timestamps fitted into their range.
A gesture takes an identifier from the supply after its strokes were accepted, and
only if it has none of its own.
-/
import GestureStore.Geometry.Gesture
import GestureStore.Value

namespace GestureStore

/-- A point as read, before it is fitted into its fields. -/
structure LoosePoint where
  /-- The horizontal coordinate. -/
  x : Float
  /-- The vertical coordinate. -/
  y : Float
  /-- The timestamp. -/
  t : Int

namespace LoosePoint

/-- The three items of a point, from left to right. -/
def ofValue (v : Value) : Except Fault LoosePoint := do
  match ← v.items with
  | [x, y, t] =>
    let x ← x.toFloat
    let y ← y.toFloat
    let t ← t.toInt
    return { x, y, t }
  | _ => .error .badValue

/-- An integer as a timestamp, if it has 64 bits. -/
def timestamp (t : Int) : Except Fault Int64 :=
  if Bytes.fits 8 t then .ok (Int64.ofInt t) else .error .outOfRange

/-- The point with coordinates rounded to single precision, if its timestamp has 64 bits. -/
def fit (p : LoosePoint) : Except Fault Point := do
  return ⟨Single.ofFloat p.x, Single.ofFloat p.y, ← timestamp p.t⟩

end LoosePoint

namespace Stroke

/-- The stroke that a value describes. -/
def ofValue (v : Value) : Except Fault Stroke := do
  let loose ← (← v.items).mapM LoosePoint.ofValue
  ofPoints (← loose.mapM LoosePoint.fit)

/-- The stroke with columns of coordinates and timestamps, which must be equally many. -/
def ofColumns (xs ys ts : Value) : Except Fault Stroke := do
  let xs ← xs.items
  let ys ← ys.items
  let ts ← ts.items
  if xs.length = ys.length ∧ ys.length = ts.length then
    let xs ← xs.mapM fun x => do return Single.ofFloat (← x.toEntry)
    let ys ← ys.mapM fun y => do return Single.ofFloat (← y.toEntry)
    let ts ← ts.mapM fun t => do LoosePoint.timestamp (← t.toInt)
    ofPoints (List.zipWith (fun x (y, t) => ⟨x, y, t⟩) xs (ys.zip ts))
  else .error (.input .unequalLengths)

/-- The points as values. -/
def toValue (s : Stroke) : Value :=
  .list (s.points.map fun p => .list [.float p.x.toFloat, .float p.y.toFloat, .int p.t.toInt])

end Stroke

namespace Gesture

/-- The name of the field with the identifier. -/
def idField : Text := Text.of "id"

/-- The name of the field with the strokes. -/
def strokesField : Text := Text.of "strokes"

/-- The strokes that the fields of a value describe; there may be none. -/
def strokesOfFields (fields : List (Text × Value)) : Except Fault (List Stroke) := do
  match Value.lookup strokesField fields with
  | some v => (← v.items).mapM Stroke.ofValue
  | none => return []

/-- The gesture with strokes, under its own identifier or the next of the supply. -/
def withId (strokes : List Stroke) (id : Value) (supply : Supply) : Except Fault Gesture × Supply :=
  match id with
  | .null => let (id, supply) := supply.take; (.ok ⟨id, strokes⟩, supply)
  | v => (v.toInt.map fun id => ⟨id, strokes⟩, supply)

/-- The gesture that a value describes. -/
def ofValue (v : Value) (supply : Supply) : Except Fault Gesture × Supply :=
  match v.fields with
  | .error e => (.error e, supply)
  | .ok fields =>
    match strokesOfFields fields with
    | .error e => (.error e, supply)
    | .ok strokes => withId strokes ((Value.lookup idField fields).getD .null) supply

/-- The gestures that values describe, up to the first that describes none. -/
def ofValues : List Value → Supply → Except Fault (List Gesture) × Supply
  | [], supply => (.ok [], supply)
  | v :: rest, supply =>
    match ofValue v supply with
    | (.error e, supply) => (.error e, supply)
    | (.ok g, supply) =>
      match ofValues rest supply with
      | (.error e, supply) => (.error e, supply)
      | (.ok gs, supply) => (.ok (g :: gs), supply)

/-- The gesture as a value. -/
def toValue (g : Gesture) : Value :=
  .object [(idField, .int g.id), (strokesField, .list (g.strokes.map Stroke.toValue))]

end Gesture
end GestureStore
