/-
A library of named gestures that learns from them.

Every stored gesture has exactly one instance in the learner, extracted under the
policy that was in force when the gesture came in, or when the library was last
rebuilt.  Changing the policy does not touch stored instances; what was extracted
under another policy shows when something is recognized.

Operations that can fail leave the library as it was, apart from the time that was
counted for stages that were completed before.
-/
import GestureStore.Learner
import GestureStore.Library.Entries
import GestureStore.Storage.Location
import GestureStore.Timing.Watch
import GestureStore.Value

namespace GestureStore

/-- Named gestures and what has been learned from them. -/
structure Library (β : Type) where
  /-- Where the library is stored. -/
  location : Location
  /-- The policy under which gestures are extracted. -/
  policy : Policy
  /-- The stored gestures. -/
  entries : Entries
  /-- Their instances. -/
  learner : Learner β
  /-- Something was changed that has not been saved. -/
  dirty : Bool
  /-- What times the stages. -/
  watch : Watch Float
  /-- How many want to hear about predictions. -/
  listeners : Nat

/-- The name of the stage of extracting features. -/
def extractionStage : Text := Text.of "extraction"

/-- The name of the stage of ranking names. -/
def classificationStage : Text := Text.of "classification"

/-- The name of the stage of writing the store. -/
def saveStage : Text := Text.of "save"

/-- The name of the stage of reading the store. -/
def loadStage : Text := Text.of "load"

namespace Library

/-- A library that holds nothing yet. -/
def new (location : Location) (policy : Policy) (profiler : Option (Profiler Float)) : Library β where
  location
  policy
  entries := []
  learner := Learner.empty
  dirty := false
  watch := ⟨profiler, Clock.still⟩
  listeners := 0

/-! ### Questions -/

/-- The number of stored gestures. -/
def size (l : Library β) : Nat := l.entries.size

/-- The entry that a value names; only texts name entries. -/
def nameOf (v : Value) : Except Fault (Option Text) :=
  match v with
  | .text t => .ok (some t)
  | .list _ => .error .wrongKind
  | .object _ => .error .wrongKind
  | _ => .ok none

/-- The gestures of an entry. -/
def get (l : Library β) (name : Value) : Except Fault (Option (List Gesture)) := do
  return (← nameOf name).bind l.entries.find?

/-- There is an entry of that name. -/
def contains (l : Library β) (name : Value) : Except Fault Bool := do
  return (← nameOf name).any l.entries.contains

/-! ### Changes without features -/

/-- Change the sequence policy. -/
def setSequence (l : Library β) (s : Sequence) : Library β :=
  { l with policy := { l.policy with sequence := s } }

/-- Change the orientation policy. -/
def setOrientation (l : Library β) (o : Option Orientation) : Library β :=
  { l with policy := { l.policy with orientation := o } }

/-- Someone more wants to hear about predictions. -/
def listen (l : Library β) : Library β := { l with listeners := l.listeners + 1 }

/-- Remove the first gesture with an identifier from an entry. -/
def removeNamed (l : Library β) (name : Text) (id : Int) : Library β :=
  match l.entries.find? name with
  | none => l
  | some gs =>
    if gs.any fun g => g.id == id then
      { l with
        entries := l.entries.replace name (gs.eraseP fun g => g.id == id)
        learner := l.learner.remove id
        dirty := true }
    else l

/-- Remove a gesture from an entry. -/
def remove (l : Library β) (name : Value) (id : Int) : Except Fault (Library β) := do
  match ← nameOf name with
  | some name => return l.removeNamed name id
  | none => return l

/-- Remove an entry with all its gestures. -/
def removeEntryNamed (l : Library β) (name : Text) : Library β :=
  if l.entries.contains name then
    { l with
      entries := l.entries.erase name
      learner := l.learner.removeLabel (some name)
      dirty := true }
  else l

/-- Remove the entry that a value names. -/
def removeEntry (l : Library β) (name : Value) : Except Fault (Library β) := do
  match ← nameOf name with
  | some name => return l.removeEntryNamed name
  | none => return l

/-- Draw one more stroke in a stored gesture; its instance stays as it is. -/
def addStroke (l : Library β) (id : Int) (s : Stroke) : Library β :=
  { l with entries := l.entries.modify id fun g => g.addStroke s }

/-! ### Adding and recognizing -/

/-- A name must be storable. -/
def checkName (name : Text) : Except Fault Unit :=
  match Utf8.encode name with
  | .error e => .error (.input (.nameNotEncodable e))
  | .ok bytes => if maxTextBytes < bytes.length then .error (.input (.nameTooLong bytes.length)) else .ok ()

section
variable [Scalar α] [Stored β α]

/-- Extract a gesture, as a stage. -/
def extract (policy : Policy) (label : Option Text) (g : Gesture) (w : Watch Float) :
    Except Fault (Instance β) × Watch Float :=
  w.stage extractionStage fun w => (Instance.extract policy label g, w)

/-- Add a gesture under a name. -/
def addNamed (l : Library β) (name : Text) (g : Gesture) : Except Fault Unit × Library β :=
  match checkName name with
  | .error e => (.error e, l)
  | .ok () =>
    if l.learner.contains g.id then (.error (.input (.alreadyStored g.id)), l)
    else
      match extract l.policy (some name) g l.watch with
      | (.error e, watch) => (.error e, { l with watch })
      | (.ok i, watch) =>
        (.ok (), { l with
          entries := l.entries.add name g
          learner := l.learner.add i
          dirty := true
          watch })

/-- Add a gesture under the name that a value is; blank and empty values are ignored. -/
def add (l : Library β) (name : Value) (g : Gesture) : Except Fault Unit × Library β :=
  match name with
  | .text t => if t.isBlank then (.ok (), l) else l.addNamed t g
  | v => if v.truthy then (.error .noSuchPart, l) else (.ok (), l)

/-- Rank the names for a gesture, the best match first. -/
def recognize (l : Library β) (g : Gesture) : Except Fault (List (Prediction α)) × Library β :=
  match (extract l.policy none g l.watch : Except Fault (Instance β) × Watch Float) with
  | (.error e, watch) => (.error e, { l with watch })
  | (.ok i, watch) =>
    let query : Query α := ⟨i.sequence, i.vector.map Stored.fetch, i.orientation⟩
    let (outcome, watch) := watch.stage classificationStage fun w => (l.learner.classify query, w)
    (outcome, { l with watch })

/-- Everything that is heard about predictions. -/
def heard (l : Library β) (ps : List (Prediction α)) : List (List (Prediction α)) :=
  List.replicate l.listeners ps

/-- Extract gestures one after the other, up to the first that cannot be. -/
def extractAll (policy : Policy) : List (Text × Gesture) → Watch Float →
    Except Fault (List (Instance β)) × Watch Float
  | [], w => (.ok [], w)
  | (name, g) :: rest, w =>
    match extract policy (some name) g w with
    | (.error e, w) => (.error e, w)
    | (.ok i, w) =>
      match extractAll policy rest w with
      | (.error e, w) => (.error e, w)
      | (.ok is, w) => (.ok (i :: is), w)

/-- Extract every stored gesture again, under the policy that is in force now. -/
def rebuild (l : Library β) : Except Fault Unit × Library β :=
  match extractAll l.policy l.entries.pairs l.watch with
  | (.error e, watch) => (.error e, { l with watch })
  | (.ok is, watch) => (.ok (), { l with learner := Learner.empty.addAll is, watch })

end

end Library
end GestureStore
