/-
What can go wrong, by cause.

A fault carries what is needed to word it.  Causes that the operating system, or
the reading of a value of the wrong kind, words for itself have no text here.
-/
import GestureStore.Policy
import GestureStore.Text.Utf8

namespace GestureStore

/-- Stored bytes ended early or held a malformed value. -/
inductive DecodeFault where
  /-- The bytes ended before the field was complete. -/
  | endOfData (field : Text)
  /-- A count is below zero. -/
  | negativeCount (field : Text) (count : Int)
  /-- A text is not UTF-8. -/
  | badText (field : Text) (error : Utf8.DecodeError)
  /-- A stroke claims to have no points. -/
  | noPoints
  /-- Two gestures of one file have the same identifier. -/
  | repeatedGesture (id : Int)
  deriving DecidableEq, Repr

/-- A gesture, or its name, cannot be taken as it is. -/
inductive InputFault where
  /-- A stroke without points. -/
  | noPoints
  /-- A coordinate that is infinite or no number. -/
  | notFinite
  /-- Coordinate and time lists of different lengths. -/
  | unequalLengths
  /-- A gesture without strokes has no features. -/
  | noStrokes (id : Int)
  /-- A gesture of several strokes has no single order of points. -/
  | manyStrokes (id : Int) (count : Nat)
  /-- Identifiers are stored once. -/
  | alreadyStored (id : Int)
  /-- An entry name that UTF-8 cannot hold. -/
  | nameNotEncodable (error : Utf8.EncodeError)
  /-- An entry name of more bytes than its length field can say. -/
  | nameTooLong (bytes : Nat)
  deriving DecidableEq, Repr

/-- A query and a stored instance were extracted under different policies. -/
inductive PolicyFault where
  /-- Their sequence policies differ. -/
  | sequence (id : Int) (stored query : Sequence)
  /-- Their vectors differ in length. -/
  | length (stored query : Nat)
  /-- Their orientation policies differ. -/
  | orientation (id : Int) (stored : Option Orientation) (query : Orientation)
  deriving DecidableEq, Repr

/-- Why an operation failed. -/
inductive Fault where
  /-- Stored bytes are malformed. -/
  | decode (cause : DecodeFault)
  /-- The input is refused. -/
  | input (cause : InputFault)
  /-- Policies do not go together. -/
  | policy (cause : PolicyFault)
  /-- Settings without a path. -/
  | missingPath
  /-- A value, here as shown, that names no sequence policy. -/
  | unknownSequence (shown : Text)
  /-- A value, here as shown, that names no orientation policy. -/
  | unknownOrientation (shown : Text)
  /-- A text of more bytes than its length field can say. -/
  | textTooLong (bytes : Nat)
  /-- A text that UTF-8 cannot hold. -/
  | notEncodable (error : Utf8.EncodeError)
  /-- A value that a field of fixed size cannot hold. -/
  | unpackable
  /-- A value of the right kind that is not acceptable. -/
  | badValue
  /-- A value of the wrong kind. -/
  | wrongKind
  /-- A value that lacks what is asked of it. -/
  | noSuchPart
  /-- A number out of range. -/
  | outOfRange
  /-- An index out of range. -/
  | badIndex
  /-- The file system refused. -/
  | system
  /-- Settings that are not well-formed. -/
  | badDocument
  /-- Bytes that had to be UTF-8 and are not. -/
  | undecodable (error : Utf8.DecodeError)
  /-- Parts inside parts, or directories inside directories, to more levels than are gone into. -/
  | tooDeep
  deriving DecidableEq, Repr

/-- The most bytes a stored text can have. -/
def maxTextBytes : Nat := 65535

namespace DecodeFault

/-- The field that was being read. -/
def field : DecodeFault → Text
  | endOfData field => field
  | negativeCount field _ => field
  | badText field _ => field
  | noPoints => Text.of "point count"
  | repeatedGesture _ => Text.of "gesture id"

/-- The fault in words. -/
def message : DecodeFault → Text
  | endOfData field => Text.of "Unexpected end of data while reading " ++ field
  | negativeCount field count => Text.of "Negative " ++ field ++ Text.of ": " ++ Text.integer count
  | badText field e => Text.of "Invalid UTF-8 in " ++ field ++ Text.of ": " ++ e.wording
  | noPoints => Text.of "Stroke has no points"
  | repeatedGesture id => Text.of "Duplicate gesture id " ++ Text.integer id

end DecodeFault

/-- Too many bytes, and how many there may be. -/
def sizeWording (bytes : Nat) : Text :=
  Text.natural bytes ++ Text.of " bytes (max " ++ Text.natural maxTextBytes ++ Text.of ")"

/-- The fault in words. -/
def InputFault.message : InputFault → Text
  | noPoints => Text.of "A stroke needs at least one point"
  | notFinite => Text.of "Stroke coordinates must be finite"
  | unequalLengths => Text.of "xs, ys and timestamps must have equal length"
  | noStrokes id => Text.of "Gesture " ++ Text.integer id ++ Text.of " has no strokes"
  | manyStrokes id count =>
    Text.of "Sequence-sensitive extraction needs a single stroke, gesture " ++ Text.integer id
      ++ Text.of " has " ++ Text.natural count
  | alreadyStored id => Text.of "Gesture " ++ Text.integer id ++ Text.of " is already in the library"
  | nameNotEncodable e => Text.of "Entry name is not valid UTF-8 text: " ++ e.wording
  | nameTooLong bytes => Text.of "Entry name too long: " ++ sizeWording bytes

/-- The fault in words. -/
def PolicyFault.message : PolicyFault → Text
  | sequence id stored query =>
    Text.of "Instance for gesture " ++ Text.integer id ++ Text.of " was extracted as " ++ stored.name
      ++ Text.of ", query is " ++ query.name
  | length stored query =>
    Text.of "Vector length mismatch: stored " ++ Text.natural stored ++ Text.of ", query "
      ++ Text.natural query
  | orientation id stored query =>
    Text.of "Instance for gesture " ++ Text.integer id ++ Text.of " has orientation "
      ++ (match stored with | some o => o.name | none => Text.of "None")
      ++ Text.of ", query is " ++ query.name

/-- The fault in words, where it has any. -/
def Fault.message? : Fault → Option Text
  | decode cause => some cause.message
  | input cause => some cause.message
  | policy cause => some cause.message
  | missingPath => some (Text.of "Library config requires a 'path'")
  | unknownSequence shown => some (shown ++ Text.of " is not a valid SequenceType")
  | unknownOrientation shown => some (shown ++ Text.of " is not a valid OrientationStyle")
  | textTooLong bytes => some (Text.of "Encoded string too long: " ++ sizeWording bytes)
  | notEncodable _ => none
  | unpackable => none
  | badValue => none
  | wrongKind => none
  | noSuchPart => none
  | outOfRange => none
  | badIndex => none
  | system => none
  | badDocument => none
  | undecodable _ => none
  | tooDeep => none

end GestureStore
