/-
Places on a disk.

A place is the names on the way from the root, with nothing left to resolve.  How many
they are is kept beside them: places seldom agree even in that, so most of them are
told apart without a look at a single name.
-/
import GestureStore.Storage.FileName
import GestureStore.Storage.Location

namespace GestureStore

/-- The names on the way from the root. -/
structure Place where
  /-- How many names there are. -/
  depth : Nat
  /-- The names, in bytes. -/
  names : List Bytes
  /-- All names are counted. -/
  counted : names.length = depth
  deriving DecidableEq

namespace Place

/-- The root. -/
def root : Place := ⟨0, [], rfl⟩

/-- The place of a name in a directory. -/
def child (p : Place) (name : Text) : Place :=
  ⟨p.depth + 1, p.names ++ [FileName.encode name], by simp [p.counted]⟩

/-- The directory that a place is in; the root is in itself. -/
def parent (p : Place) : Place := ⟨p.depth - 1, p.names.dropLast, by simp [p.counted]⟩

/-- The place at the end of names, each in the directory before it. -/
def ofNames (names : List Text) : Place := names.foldl child root

/-- The place as text. -/
def path (p : Place) : Text :=
  Location.slash :: Text.joinWith [Location.slash] (p.names.map FileName.decode)

/-- The number of bytes of the place as text, a slash before each name. -/
def byteCount (p : Place) : Nat := p.names.foldl (fun n name => n + name.length + 1) 0

/-- The names from a directory on to a place below it. -/
def namesFrom? (directory place : Place) : Option (List Bytes) :=
  if directory.depth < place.depth ∧ place.names.take directory.depth = directory.names then
    some (place.names.drop directory.depth)
  else none

end Place
end GestureStore
