/-
Libraries at work.

A workspace is a library together with the disk its file is on.  Each operation
answers or fails, may leave notices, and leads to the next workspace.
-/
import GestureStore.Library.Storing
import GestureStore.Settings

namespace GestureStore

/-- A library and its surroundings. -/
structure Workspace (β : Type) where
  /-- The library. -/
  library : Library β
  /-- Where its file is. -/
  disk : Disk

/-- What can be done with a library. -/
inductive Operation where
  /-- Add a gesture under a name. -/
  | add (name : Value) (g : Gesture)
  /-- Remove a gesture from an entry. -/
  | remove (name : Value) (id : Int)
  /-- Remove an entry. -/
  | removeEntry (name : Value)
  /-- Rank the names for a gesture. -/
  | recognize (g : Gesture)
  /-- Extract every stored gesture again. -/
  | rebuild
  /-- Change the sequence policy. -/
  | setSequence (s : Sequence)
  /-- Change the orientation policy. -/
  | setOrientation (o : Option Orientation)
  /-- Write the library to its file. -/
  | save
  /-- Read the library from its file. -/
  | load

/-- What an operation answers. -/
inductive Answer (α : Type) where
  /-- It is done. -/
  | done
  /-- Whether the library was saved or loaded. -/
  | flag (b : Bool)
  /-- The ranking. -/
  | predictions (ps : List (Prediction α))

/-- What comes of an operation. -/
structure Report (α : Type) where
  /-- The answer, or why there is none. -/
  outcome : Except Fault (Answer α)
  /-- What else there is to tell. -/
  notices : List Notice

/-- The profiler that settings ask for. -/
def Settings.profiler (s : Settings) : Option (Profiler Float) :=
  if s.profile then some (Profiler.start true) else none

/-- The library that settings ask for, given the directory of the user. -/
def Library.ofSettings (home : Location) (s : Settings) : Library β :=
  Library.new (s.location home) ⟨s.sequence, some s.orientation⟩ s.profiler

namespace Workspace

variable [Scalar α] [Stored β α]

/-- The workspace with another library. -/
def withLibrary (w : Workspace β) (l : Library β) : Workspace β := { w with library := l }

/-- An operation that only changes the library, or fails. -/
def change (w : Workspace β) (outcome : Except Fault (Library β)) : Report α × Workspace β :=
  match outcome with
  | .ok l => (⟨.ok .done, []⟩, w.withLibrary l)
  | .error e => (⟨.error e, []⟩, w)

/-- Carry out an operation. -/
def perform (w : Workspace β) : Operation → Report α × Workspace β
  | .add name g =>
    let (outcome, l) := w.library.add name g
    (⟨outcome.map fun _ => .done, []⟩, w.withLibrary l)
  | .remove name id => w.change (w.library.remove name id)
  | .removeEntry name => w.change (w.library.removeEntry name)
  | .recognize g =>
    let (outcome, l) := w.library.recognize g
    (⟨outcome.map .predictions, []⟩, w.withLibrary l)
  | .rebuild =>
    let (outcome, l) := w.library.rebuild
    (⟨outcome.map fun _ => .done, []⟩, w.withLibrary l)
  | .setSequence s => w.change (.ok (w.library.setSequence s))
  | .setOrientation o => w.change (.ok (w.library.setOrientation o))
  | .save =>
    let (outcome, notices, library, disk) := w.library.save w.disk
    (⟨outcome.map .flag, notices⟩, { library, disk })
  | .load =>
    let (outcome, notices, l) := w.library.load w.disk
    (⟨outcome.map .flag, notices⟩, w.withLibrary l)

/-- Carry out operations one after the other. -/
def run (w : Workspace β) (ops : List Operation) : Workspace β :=
  ops.foldl (fun w op => (w.perform op).2) w

end Workspace
end GestureStore
