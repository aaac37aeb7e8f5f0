/-
Where a file is, as a path names it.

A path is read once, into its root and its names.  Empty names and single dots say
nothing and are dropped; double dots are kept, since what they mean depends on the
disk.  A path that begins with exactly two slashes keeps both.
-/
import GestureStore.Text

namespace GestureStore

/-- A path. -/
structure Location where
  /-- How many slashes it begins with: none for one that starts in the working directory, else one or two. -/
  slashes : Nat
  /-- The names on the way, double dots among them. -/
  names : List Text
  deriving DecidableEq, Repr

namespace Location

/-- The slash. -/
def slash : CodePoint := CodePoint.ofChar '/'

/-- The name that stays where one is. -/
def dot : Text := Text.of "."

/-- The name that goes up. -/
def dots : Text := Text.of ".."

/-- The names that a text holds between its slashes, apart from those that say nothing. -/
def namesOf (t : Text) : List Text :=
  (Text.splitOn slash t).filter fun name => !(name.isEmpty || name == dot)

/-- The number of slashes that count at the beginning of a text. -/
def slashesOf (t : Text) : Nat :=
  match (t.takeWhile (· == slash)).length with
  | 0 => 0
  | 2 => 2
  | _ => 1

/-- The path that a text denotes. -/
def ofText (t : Text) : Location := ⟨slashesOf t, namesOf t⟩

/-- The path as text; where nothing is left of it, a single dot. -/
def text (l : Location) : Text :=
  if l.slashes = 0 ∧ l.names = [] then dot
  else List.replicate l.slashes slash ++ Text.joinWith [slash] l.names

/-- The last name; a bare root has none. -/
def name (l : Location) : Text := l.names.getLast?.getD []

/-- The path without its last name. -/
def parent (l : Location) : Location := { l with names := l.names.dropLast }

/-- The path with a tilde in front replaced by the directory of the user. -/
def expanded (l home : Location) : Location :=
  match l.slashes, l.names with
  | 0, first :: rest => if first == Text.of "~" then ⟨home.slashes, home.names ++ rest⟩ else l
  | _, _ => l

end Location
end GestureStore
