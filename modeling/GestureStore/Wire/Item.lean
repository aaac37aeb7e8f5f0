/-
A stream of single values.

An item is a value together with the form it is written in.  Its kind is what has to
be known to read it back: the form and, for a block of points, their number.
-/
import GestureStore.Geometry.Trace
import GestureStore.Wire.Reader
import GestureStore.Wire.Sink

namespace GestureStore

/-- The forms of single values. -/
inductive Form where
  /-- An integer of 16 bits. -/
  | short
  /-- An integer of 32 bits. -/
  | int
  /-- An integer of 64 bits. -/
  | long
  /-- A number in single precision. -/
  | float
  /-- A text. -/
  | utf
  /-- A block of points. -/
  | points
  deriving DecidableEq, Repr

/-- A value to write. -/
inductive Item where
  /-- An integer of 16 bits. -/
  | short (i : Int)
  /-- An integer of 32 bits. -/
  | int (i : Int)
  /-- An integer of 64 bits. -/
  | long (i : Int)
  /-- A number to be rounded to single precision. -/
  | float (x : Float)
  /-- A text. -/
  | utf (t : Text)
  /-- A block of points. -/
  | points (ps : List Point)

namespace Item

/-- The bytes of an item. -/
def encode : Item → Except Fault Bytes
  | short i => Writer.short i
  | int i => Writer.int i
  | long i => Writer.long i
  | float x => Writer.float x
  | utf t => Writer.utf t
  | points ps => .ok (Writer.points ps)

/-- The integer that a value stands for where only integers are written. -/
def integerOfValue : Value → Except Fault Int
  | .int i => .ok i
  | .bool b => .ok (if b then 1 else 0)
  | _ => .error .unpackable

/-- An integer as a number to be written; one that the form cannot hold has no place in it. -/
def fitted (i : Int) : Except Fault Float :=
  let x := floatOfInteger i
  if (Single.ofFloat x).isFinite then .ok x else .error .unpackable

/-- The number that a value stands for where only numbers are written. -/
def floatOfValue : Value → Except Fault Float
  | .float x => .ok x
  | .bool b => fitted (if b then 1 else 0)
  | .int i => fitted i
  | _ => .error .unpackable

/-- The three parts of a point, the last of them converted. -/
def partsOfValue (v : Value) : Except Fault (Value × Value × Int) := do
  match ← v.items with
  | [x, y, t] => return (x, y, ← t.toInt)
  | _ => .error .badValue

/-- The points of a block; all are taken apart before any is put into its fields. -/
def pointsOfValue (v : Value) : Except Fault (List Point) := do
  let parts ← (← v.items).mapM partsOfValue
  parts.mapM fun (x, y, t) => do LoosePoint.fit ⟨← x.toEntry, ← y.toEntry, t⟩

/-- The item of a form that a value describes. -/
def ofValue (form : Form) (v : Value) : Except Fault Item :=
  match form with
  | .short => (integerOfValue v).map short
  | .int => (integerOfValue v).map int
  | .long => (integerOfValue v).map long
  | .float => (floatOfValue v).map float
  | .utf => match v with | .text t => .ok (utf t) | _ => .error .noSuchPart
  | .points => (pointsOfValue v).map points

/-- Put an item on the stream. -/
def write : Item → Sink Unit
  | short i => Sink.integer 2 i
  | int i => Sink.integer 4 i
  | long i => Sink.integer 8 i
  | float x => Sink.float x
  | utf t => Sink.utf t
  | points ps => Sink.points ps

/-- Write an item behind what has been written; what was put before it was refused stays. -/
def append (stream : Bytes) (item : Item) : Bytes := (item.write.run stream).2

end Item
end GestureStore
