/-
Putting values on a stream.

A value is put on the stream in one piece or in several.  Putting it may be stopped, and
whatever is on the stream by then stays there.
-/
import GestureStore.Wire.Writer

namespace GestureStore

/-- A computation that puts bytes behind a stream. -/
abbrev Sink (α : Type) := ExceptT Fault (StateM Bytes) α

namespace Sink

/-- Put bytes behind the stream. -/
def put (bytes : Bytes) : Sink Unit := modify fun stream => stream ++ bytes

/-- The value of a computation; if it has failed, that is the end. -/
def ofExcept (outcome : Except Fault α) : Sink α :=
  match outcome with
  | .ok a => pure a
  | .error e => throw e

/-- Put an integer in `k` bytes. -/
def integer (k : Nat) (i : Int) : Sink Unit := do put (← ofExcept (Writer.integer k i))

/-- Put a number, rounded to single precision. -/
def float (x : Float) : Sink Unit := do put (← ofExcept (Writer.float x))

/-- Put a text: the number of its bytes, and then its bytes. -/
def utf (t : Text) : Sink Unit := do
  let bytes ← ofExcept ((Utf8.encode t).mapError .notEncodable)
  if maxTextBytes < bytes.length then throw (.textTooLong bytes.length)
  put (Bytes.ofNat 2 bytes.length)
  put bytes

/-- Put a block of points. -/
def points (ps : List Point) : Sink Unit := put (Writer.points ps)

end Sink
end GestureStore
