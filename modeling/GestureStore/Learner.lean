/-
Ranking labels by their nearest instance.

A learner keeps one instance for each gesture, in the order in which the gestures
first came.  A query is measured against every instance that has a label: a near one
weighs much, and a label scores the greatest weight among its instances.  Adding an
example can therefore not lower the score of its label.

Instances that were extracted under another policy cannot be measured against the
query; the first of them ends the classification.
-/
import GestureStore.Feature.Instance

namespace GestureStore

/-- A label and its score; a higher one is a better match. -/
structure Prediction (α : Type) where
  /-- The label. -/
  name : Text
  /-- The score. -/
  score : α
  deriving DecidableEq

/-- The instances to measure queries against, in the order their gestures first came. -/
structure Learner (β : Type) where
  /-- At most one instance for each gesture. -/
  instances : List (Instance β)
  deriving DecidableEq

/-- What is to be classified. -/
structure Query (α : Type) where
  /-- The sequence policy of the vector. -/
  sequence : Sequence
  /-- The vector. -/
  vector : List α
  /-- The orientation policy that instances must have, if that matters. -/
  orientation : Option Orientation

namespace Learner

/-- A learner that has seen nothing. -/
def empty : Learner β := ⟨[]⟩

/-- The instance of a gesture. -/
def find? (l : Learner β) (id : Int) : Option (Instance β) := l.instances.find? fun i => i.id == id

/-- There is an instance of the gesture. -/
def contains (l : Learner β) (id : Int) : Bool := l.instances.any fun i => i.id == id

/-- The instances with one put in the place of the one for the same gesture, or last. -/
def put (i : Instance β) : List (Instance β) → List (Instance β)
  | [] => [i]
  | j :: rest => if j.id == i.id then i :: rest else j :: put i rest

/-- Add an instance; it takes the place of an earlier one for the same gesture. -/
def add (l : Learner β) (i : Instance β) : Learner β := ⟨put i l.instances⟩

/-- Add instances from the first to the last. -/
def addAll (l : Learner β) (is : List (Instance β)) : Learner β := is.foldl add l

/-- Remove the instance of a gesture, if there is one. -/
def remove (l : Learner β) (id : Int) : Learner β := ⟨l.instances.filter fun i => !(i.id == id)⟩

/-- Remove every instance that was trained under a label, or every one without a label. -/
def removeLabel (l : Learner β) (label : Option Text) : Learner β :=
  ⟨l.instances.filter fun i => !(i.label == label)⟩

/-! ### Measuring -/

section
variable [Scalar α]

/-- Distances below this are exact matches. -/
def leastDistance : α := Scalar.ofDecimal 1 6

/-- The straight distance between two vectors. -/
def straightDistance (v w : List α) : α := Shape.norm (List.zipWith (· - ·) v w)

/-- The sum of the products of corresponding entries. -/
def dot (v w : List α) : α := Scalar.sum (List.zipWith (· * ·) v w)

/-- The angle between two vectors of length one. -/
def angle (v w : List α) : α :=
  Scalar.acos (Scalar.greater (-Scalar.one) (Scalar.lesser Scalar.one (dot v w)))

/-- How far apart two vectors are: rasters by their difference, shapes by their angle. -/
def distance (sequence : Sequence) (v w : List α) : α :=
  match sequence with
  | .invariant => straightDistance v w
  | .sensitive => angle v w

/-- What an instance at a distance weighs. -/
def weight (distance : α) : α := Scalar.one / Scalar.greater distance leastDistance

/-! ### Ranking -/

/-- The scores with a weight counted for a label: it stands if it is the label's greatest so far. -/
def raise (name : Text) (w : α) : List (Prediction α) → List (Prediction α)
  | [] => if Scalar.lt Scalar.zero w then [⟨name, w⟩] else []
  | p :: rest =>
    if p.name == name then (if Scalar.lt p.score w then ⟨name, w⟩ :: rest else p :: rest)
    else p :: raise name w rest

/-- A prediction may stand before another: by its score, and at equal scores by its label. -/
def ranks (p q : Prediction α) : Bool :=
  if Scalar.lt q.score p.score then true
  else if Scalar.lt p.score q.score then false
  else Text.le p.name q.name

/-- The best weight of every label among weights in the order of their instances. -/
def best (weights : List (Text × α)) : List (Prediction α) :=
  weights.foldl (fun scores w => raise w.1 w.2 scores) []

variable [Stored β α]

/-- Why an instance cannot be measured against a query. -/
def mismatch? (q : Query α) (i : Instance β) : Option PolicyFault :=
  if i.sequence ≠ q.sequence then some (.sequence i.id i.sequence q.sequence)
  else if i.vector.length ≠ q.vector.length then some (.length i.vector.length q.vector.length)
  else
    match q.orientation with
    | none => none
    | some o => if i.orientation ≠ some o then some (.orientation i.id i.orientation o) else none

/-- The weight of an instance for a query. -/
def weightOf (q : Query α) (i : Instance β) : α :=
  weight (distance q.sequence q.vector (i.vector.map Stored.fetch))

/-- The instances that have a label, with it. -/
def labelled (l : Learner β) : List (Text × Instance β) :=
  l.instances.filterMap fun i => i.label.map fun name => (name, i)

/-- Rank the labels for a query, the best match first. -/
def classify (l : Learner β) (q : Query α) : Except Fault (List (Prediction α)) :=
  match l.labelled.findSome? fun e => mismatch? q e.2 with
  | some fault => .error (.policy fault)
  | none => .ok ((best (l.labelled.map fun e => (e.1, weightOf q e.2))).mergeSort ranks)

end

end Learner
end GestureStore
