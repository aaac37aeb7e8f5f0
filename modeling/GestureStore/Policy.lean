/-
The two choices that decide which features of a gesture count.

The sequence policy says whether the order of strokes and points matters, the
orientation policy whether the direction in which a stroke is drawn does.
Orientation plays a part only where sequence matters.
-/
import GestureStore.Text

namespace GestureStore

/-- Whether stroke and point order affect the features. -/
inductive Sequence where
  /-- Only what is drawn counts. -/
  | invariant
  /-- The order in which it is drawn counts too. -/
  | sensitive
  deriving DecidableEq, Repr

/-- Whether absolute rotation affects the features. -/
inductive Orientation where
  /-- A rotated stroke has the same features. -/
  | invariant
  /-- A rotated stroke has other features. -/
  | sensitive
  deriving DecidableEq, Repr

/-- The word for a sequence policy. -/
def Sequence.name : Sequence → Text
  | invariant => Text.of "invariant"
  | sensitive => Text.of "sensitive"

/-- The word for an orientation policy. -/
def Orientation.name : Orientation → Text
  | invariant => Text.of "invariant"
  | sensitive => Text.of "sensitive"

/-- The sequence policy that a word names. -/
def Sequence.ofName? (t : Text) : Option Sequence :=
  if t = Text.of "invariant" then some .invariant
  else if t = Text.of "sensitive" then some .sensitive
  else none

/-- The orientation policy that a word names. -/
def Orientation.ofName? (t : Text) : Option Orientation :=
  if t = Text.of "invariant" then some .invariant
  else if t = Text.of "sensitive" then some .sensitive
  else none

/-- The policies under which features are extracted. -/
structure Policy where
  /-- What the order of strokes and points does. -/
  sequence : Sequence
  /-- What rotation does; with none given it counts, and queries accept every stored style. -/
  orientation : Option Orientation
  deriving DecidableEq, Repr

end GestureStore
