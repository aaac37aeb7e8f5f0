/-
Named lists of gestures.

Entries stand in the order in which their names first came, the gestures of an entry
in the order in which they were added.  A name comes into being with its first
gesture and goes with its last.
-/
import GestureStore.Geometry.Gesture

namespace GestureStore

/-- Gestures by the name they are stored under. -/
abbrev Entries := List (Text × List Gesture)

namespace Entries

/-- The gestures under a name. -/
def find? (es : Entries) (name : Text) : Option (List Gesture) :=
  (List.find? (fun e => e.1 == name) es).map (·.2)

/-- There is an entry of that name. -/
def contains (es : Entries) (name : Text) : Bool := es.any fun e => e.1 == name

/-- Add a gesture under a name, behind those that are there. -/
def add (name : Text) (g : Gesture) : Entries → Entries
  | [] => [(name, [g])]
  | e :: rest => if e.1 == name then (e.1, e.2 ++ [g]) :: rest else e :: add name g rest

/-- Remove an entry. -/
def erase (es : Entries) (name : Text) : Entries := List.filter (fun e => !(e.1 == name)) es

/-- Put other gestures under a name; none of them, and the entry is gone. -/
def replace (es : Entries) (name : Text) (gs : List Gesture) : Entries :=
  if gs.isEmpty then es.erase name else List.map (fun e => if e.1 == name then (e.1, gs) else e) es

/-- Every gesture with the name it is stored under, entry by entry. -/
def pairs (es : Entries) : List (Text × Gesture) := List.flatMap (fun e => e.2.map fun g => (e.1, g)) es

/-- All gestures, entry by entry. -/
def gestures (es : Entries) : List Gesture := List.flatMap (·.2) es

/-- The number of gestures. -/
def size (es : Entries) : Nat := es.gestures.length

/-- The entries with a change made to one gesture. -/
def modify (es : Entries) (id : Int) (change : Gesture → Gesture) : Entries :=
  List.map (fun e => (e.1, e.2.map fun g => if g.id == id then change g else g)) es

/-- The entries in the order of their names. -/
def sorted (es : Entries) : Entries := List.mergeSort es fun e f => Text.le e.1 f.1

/-- Entries made by adding gestures one after the other. -/
def ofPairs (ps : List (Text × Gesture)) : Entries := ps.foldl (fun es p => add p.1 p.2 es) []

end Entries
end GestureStore
