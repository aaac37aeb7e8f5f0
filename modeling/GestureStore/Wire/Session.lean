/-
Values written on one stream in turn, and read back from it.

After a value that was refused the writer goes on with the next one.  A reader goes
through the same kinds in the same order; a number that was rounded when it was written
comes back as it was rounded to.
-/
import GestureStore.Wire.Item

namespace GestureStore
namespace Item

/-! ### Writing -/

/-- Put what was asked for on the stream, unless it is a value of the wrong kind. -/
def attempt (asked : Except Fault Item) : Sink Item := do
  let item ← Sink.ofExcept asked
  item.write
  return item

/-- The stream after steps one after the other, and the items of those that were not stopped. -/
def session (stream : Bytes) : List (Except Fault Item) → Bytes × List Item
  | [] => (stream, [])
  | asked :: rest =>
    match (attempt asked).run stream with
    | (.ok item, stream) => ((session stream rest).1, item :: (session stream rest).2)
    | (.error _, stream) => session stream rest

/-! ### Reading -/

/-- What has to be known of an item to read it. -/
inductive Kind where
  /-- An integer of 16 bits. -/
  | short
  /-- An integer of 32 bits. -/
  | int
  /-- An integer of 64 bits. -/
  | long
  /-- A number in single precision. -/
  | float
  /-- A text. -/
  | utf
  /-- A block of so many points. -/
  | points (n : Nat)
  deriving DecidableEq, Repr

/-- What is read. -/
inductive Datum where
  /-- An integer. -/
  | integer (i : Int)
  /-- A number in single precision. -/
  | single (s : Single)
  /-- A text. -/
  | text (t : Text)
  /-- Points. -/
  | points (ps : List Point)
  deriving DecidableEq

/-- The kind of an item. -/
def kind : Item → Kind
  | short _ => .short
  | int _ => .int
  | long _ => .long
  | float _ => .float
  | utf _ => .utf
  | points ps => .points ps.length

/-- What an item is once it is written. -/
def datum : Item → Datum
  | short i => .integer i
  | int i => .integer i
  | long i => .integer i
  | float x => .single (Single.ofFloat x)
  | utf t => .text t
  | points ps => .points ps

namespace Kind

/-- Read an item of a kind, for a field. -/
def read (field : Text) : Kind → Reader Datum
  | short => do return .integer (← Reader.short field)
  | int => do return .integer (← Reader.int field)
  | long => do return .integer (← Reader.long field)
  | float => do return .single (← Reader.float field)
  | utf => do return .text (← Reader.utf field)
  | points n => do return .points (← Reader.points n field)

/-- Read items of several kinds in turn, each for its field. -/
def readAll : List (Kind × Text) → Reader (List Datum)
  | [] => return []
  | (kind, field) :: rest => do
    let first ← kind.read field
    let later ← readAll rest
    return first :: later

end Kind
end Item
end GestureStore
