/-
The stored form of named gestures.

A file begins with its version.  In version 1 the number of entries follows, and for
each of them its name, the number of its gestures, and the gestures.  Nothing but the
version is known of files of other versions, so nothing is read from them.

Reading yields every gesture, with its name, up to the first place where the file
cannot be read.  An entry without gestures yields nothing, and entries of one name
come together when their gestures are added up.
-/
import GestureStore.Library.Entries
import GestureStore.Wire.Gesture

namespace GestureStore
namespace StoreFile

/-- The version that is written. -/
def version : Int := 1

/-! ### Writing -/

/-- The values that make up a stored entry. -/
def entryParts (e : Text × List Gesture) : List (Except Fault Bytes) :=
  Writer.utf e.1 :: Writer.int e.2.length :: e.2.flatMap Gesture.parts

/-- The values that make up a file. -/
def parts (es : Entries) : List (Except Fault Bytes) :=
  Writer.short version :: Writer.int es.length :: es.flatMap entryParts

/-- Write a file, up to the first value that is refused. -/
def write (es : Entries) : Written := Writer.all (parts es)

/-! ### Reading -/

/-- Read the name of an entry and the number of its gestures. -/
def entryHeader : Reader (Text × Nat) := do
  let name ← Reader.utf (Text.of "entry name")
  let n ← Reader.count (Text.of "gesture count")
  return (name, n)

/-- The gestures of the next `n` entries, with their names. -/
def entriesFrom : Nat → Bytes → Reader.Run (Text × Gesture)
  | 0, b => ⟨[], none, b⟩
  | n + 1, b =>
    match entryHeader b with
    | (.error e, rest) => ⟨[], some e, rest⟩
    | (.ok (name, k), rest) =>
      let own := Reader.run Gesture.read k rest
      let items := own.items.map fun g => (name, g)
      match own.fault with
      | some e => ⟨items, some e, own.rest⟩
      | none =>
        let later := entriesFrom n own.rest
        ⟨items ++ later.items, later.fault, later.rest⟩

/-- The gestures of all entries, with their names. -/
def entries (b : Bytes) : Reader.Run (Text × Gesture) :=
  match Reader.count (Text.of "entry count") b with
  | (.error e, rest) => ⟨[], some e, rest⟩
  | (.ok n, rest) => entriesFrom n rest

/-- What a file holds. -/
inductive Contents where
  /-- Gestures with their names, up to where the file cannot be read. -/
  | known (run : Reader.Run (Text × Gesture))
  /-- Something of another version. -/
  | unknown (version : Int)

/-- Read a file; its version has to be there. -/
def read (b : Bytes) : Except Fault Contents :=
  match Reader.short (Text.of "file version") b with
  | (.error e, _) => .error e
  | (.ok v, rest) => .ok (if v = version then .known (entries rest) else .unknown v)

end StoreFile
end GestureStore
