/-
Saving a library and loading it back.

A library that has no changes is not written.  When it is written, its file is
replaced as a whole or not at all.  A file is loaded as a whole or not at all, too:
everything in it is extracted beside the library before anything takes its place.

What goes wrong with a file is not a fault but a notice, and the answer that nothing
was saved or loaded.  Only a file under too many directories that are missing is a
fault.
-/
import GestureStore.Library.Library
import GestureStore.Storage.Disk
import GestureStore.Wire.Store

namespace GestureStore

/-- Something to be told besides an answer. -/
inductive Notice where
  /-- The library could not be written. -/
  | notSaved (location : Location) (cause : Fault)
  /-- A temporary file could not be removed. -/
  | notRemoved (place : Place) (cause : Fault)
  /-- The library could not be read. -/
  | notLoaded (location : Location) (cause : Fault)
  /-- The file is of a version that nothing is known of. -/
  | unknownVersion (version : Int) (location : Location)
  deriving DecidableEq

namespace Notice

/-- A cause behind a colon, where it has words. -/
def because (cause : Fault) : Text :=
  match cause.message? with
  | some m => Text.of ": " ++ m
  | none => Text.of ":"

/-- The notice in words. -/
def message : Notice → Text
  | notSaved location cause =>
    Text.of "Failed to save gestures to " ++ location.text ++ because cause
  | notRemoved place cause =>
    Text.of "Could not remove temporary file " ++ place.path ++ because cause
  | notLoaded location cause =>
    Text.of "Failed to load gestures from " ++ location.text ++ because cause
  | unknownVersion version location =>
    Text.of "Unknown gesture file version " ++ Text.integer version ++ Text.of " in " ++ location.text
      ++ Text.of ", no entries loaded"

end Notice

namespace Library

/-! ### Saving -/

/-- Write the library to its file, if it has changes. -/
def save (l : Library β) (d : Disk) : Except Fault Bool × List Notice × Library β × Disk :=
  if !l.dirty then (.ok true, [], l, d)
  else
    let (noted, watch) := l.watch.enter
    let file := StoreFile.write l.entries
    match d.replace l.location file.bytes file.fault with
    | (.ok (), _, d) =>
      (.ok true, [], { l with dirty := false, watch := watch.leave saveStage noted }, d)
    | (.error .tooDeep, _, d) => (.error .tooDeep, [], { l with watch }, d)
    | (.error e, left, d) =>
      (.ok false, .notSaved l.location e :: left.toList.map (.notRemoved · .system),
        { l with watch }, d)

/-! ### Loading -/

/-- What has been taken from a file so far. -/
structure Staged (β : Type) where
  /-- The gestures. -/
  entries : Entries
  /-- Their instances. -/
  learner : Learner β

section
variable [Scalar α] [Stored β α]

/-- Take in gestures one after the other; `later` is why there are no more of them. -/
def takeIn (policy : Policy) (later : Option Fault) (staged : Staged β) :
    List (Text × Gesture) → Watch Float → Except Fault (Staged β) × Watch Float
  | [], w => (match later with | some e => .error e | none => .ok staged, w)
  | (name, g) :: rest, w =>
    if staged.learner.contains g.id then (.error (.decode (.repeatedGesture g.id)), w)
    else
      match extract policy (some name) g w with
      | (.error e, w) => (.error e, w)
      | (.ok i, w) =>
        takeIn policy later ⟨staged.entries.add name g, staged.learner.add i⟩ rest w

/-- Take in the contents of a file. -/
def staged (policy : Policy) (contents : StoreFile.Contents) (w : Watch Float) :
    Except Fault (Staged β) × Watch Float :=
  match contents with
  | .unknown _ => (.ok ⟨[], Learner.empty⟩, w)
  | .known run => takeIn policy run.fault ⟨[], Learner.empty⟩ run.items w

/-- What there is to tell about the contents of a file. -/
def versionNotice (l : Library β) : StoreFile.Contents → List Notice
  | .unknown version => [.unknownVersion version l.location]
  | .known _ => []

/-- Put what is in a file in the place of what the library holds. -/
def loadBytes (l : Library β) (bytes : Bytes) : Bool × List Notice × Library β :=
  let (noted, watch) := l.watch.enter
  match StoreFile.read bytes with
  | .error e => (false, [.notLoaded l.location e], { l with watch })
  | .ok contents =>
    let notices := l.versionNotice contents
    match staged l.policy contents watch with
    | (.error e, watch) => (false, notices ++ [.notLoaded l.location e], { l with watch })
    | (.ok s, watch) =>
      (true, notices, { l with
        entries := s.entries
        learner := s.learner
        dirty := false
        watch := watch.leave loadStage noted })

/-- Put what is in the library's file in its place; without a file nothing is loaded. -/
def load (l : Library β) (d : Disk) : Except Fault Bool × List Notice × Library β :=
  match d.contents? l.location with
  | .error e => (.error e, [], l)
  | .ok none => (.ok false, [], l)
  | .ok (some bytes) =>
    let (answer, notices, l) := l.loadBytes bytes
    (.ok answer, notices, l)

end

end Library
end GestureStore
