/-
Settings for a library.

Settings come as named values of any kind.  Only the path has to be there; it is
taken as a text whatever it is.  Written as a document and read again, settings are
what they were.
-/
import GestureStore.Policy
import GestureStore.Storage.Location
import GestureStore.Value.Show
import GestureStore.Yaml.Reader
import GestureStore.Yaml.Writer

namespace GestureStore

/-- What a library is made from. -/
structure Settings where
  /-- The path of the store. -/
  path : Text
  /-- The sequence policy. -/
  sequence : Sequence
  /-- The orientation policy. -/
  orientation : Orientation
  /-- Stages are to be timed. -/
  profile : Bool
  deriving DecidableEq, Repr

namespace Settings

/-- The name of the path. -/
def pathField : Text := Text.of "path"

/-- The name of the sequence policy. -/
def sequenceField : Text := Text.of "sequence_type"

/-- The name of the orientation policy. -/
def orientationField : Text := Text.of "orientation_style"

/-- The name of the switch for timing. -/
def profileField : Text := Text.of "profile"

/-- The path, given the directory of the user. -/
def location (home : Location) (s : Settings) : Location := (Location.ofText s.path).expanded home

/-- The settings among named values; what is missing but the path has a default. -/
def ofFields (fields : List (Text × Value)) : Except Fault Settings := do
  let path := (Value.lookup pathField fields).getD .null
  if !path.truthy then .error .missingPath
  else
    let path ← path.asText
    let sequence ← ((Value.lookup sequenceField fields).getD (.text (Text.of "sensitive"))).toSequence
    let orientation ←
      ((Value.lookup orientationField fields).getD (.text (Text.of "sensitive"))).toOrientation
    return {
      path
      sequence
      orientation
      profile := ((Value.lookup profileField fields).getD (.bool false)).truthy }

/-- The settings that a value describes. -/
def ofValue (v : Value) : Except Fault Settings := do ofFields (← v.fields)

/-- The settings as a value. -/
def toValue (s : Settings) : Value :=
  .object [(pathField, .text s.path), (sequenceField, .text s.sequence.name),
    (orientationField, .text s.orientation.name), (profileField, .bool s.profile)]

/-! ### As a document -/

/-- The text with every end of a line as a line feed. -/
def withLineFeeds : Text → Text
  | [] => []
  | p :: rest =>
    if p.is '\r' then
      match rest with
      | q :: after =>
        if q.is '\n' then CodePoint.ofChar '\n' :: withLineFeeds after
        else CodePoint.ofChar '\n' :: withLineFeeds (q :: after)
      | [] => [CodePoint.ofChar '\n']
    else p :: withLineFeeds rest

/-- The settings in a document; one that holds nothing counts as an empty mapping. -/
def ofDocument (t : Text) : Except Fault Settings := do
  let v ← Yaml.read (withLineFeeds t)
  ofValue (if v.truthy then v else .object [])

/-- The settings in the contents of a file. -/
def ofBytes (bytes : Bytes) : Except Fault Settings :=
  match Utf8.decode bytes with
  | .ok t => ofDocument t
  | .error e => .error (.undecodable e)

/-- The settings as a document. -/
def toDocument (s : Settings) : Text :=
  Yaml.written [(pathField, .text s.path), (sequenceField, .text s.sequence.name),
    (orientationField, .text s.orientation.name), (profileField, .bool s.profile)]

end Settings
end GestureStore
