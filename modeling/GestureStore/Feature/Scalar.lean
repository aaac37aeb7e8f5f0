/-
The numbers that features are computed with.

Features, distances and scores are written over any scalars that can be added,
compared, rounded to integers and turned by angles.  The program runs them over
double precision numbers; over exact numbers the same definitions say what the
features mean.  Points and stored vectors come in single precision, and a scalar
type says what such a number is worth in it.
-/
import GestureStore.Number.Single

namespace GestureStore

/-- Scalars to compute features with. -/
class Scalar (α : Type) extends Add α, Sub α, Mul α, Div α, Neg α where
  /-- An integer. -/
  ofInt : Int → α
  /-- The decimal `m · 10 ^ -places`. -/
  ofDecimal : Nat → Nat → α
  /-- A number in single precision. -/
  ofSingle : Single → α
  /-- The first is less than the second. -/
  lt : α → α → Bool
  /-- The greatest integer that is not above. -/
  floor : α → Int
  /-- The square root. -/
  sqrt : α → α
  /-- The cosine of an angle. -/
  cos : α → α
  /-- The sine of an angle. -/
  sin : α → α
  /-- The angle with a given cosine. -/
  acos : α → α
  /-- The angle of the point with a given y and x. -/
  atan2 : α → α → α

-- A type that has its own arithmetic keeps it.
attribute [instance (low)] Scalar.toAdd Scalar.toSub Scalar.toMul Scalar.toDiv Scalar.toNeg

namespace Scalar

variable [Scalar α]

/-- Zero. -/
def zero : α := ofInt 0

/-- One. -/
def one : α := ofInt 1

/-- The smallest integer that is not below. -/
def ceil (x : α) : Int := -floor (-x)

/-- The second scalar where it is smaller, else the first. -/
def lesser (x y : α) : α := if lt y x then y else x

/-- The second scalar where it is greater, else the first. -/
def greater (x y : α) : α := if lt x y then y else x

/-- The sum from the first to the last. -/
def sum (xs : List α) : α := xs.foldl (· + ·) zero

end Scalar

instance : Scalar Float where
  ofInt := Float.ofInt
  ofDecimal m places := Float.ofScientific m true places
  ofSingle := Single.toFloat
  lt x y := decide (x < y)
  floor x := (Double.ofFloat x).floor
  sqrt := Float.sqrt
  cos := Float.cos
  sin := Float.sin
  acos := Float.acos
  atan2 := Float.atan2

/--
How the entries of a feature vector are stored.

Scalars of the type `α` are stored as `β`; what is fetched back is near to what was
stored, and the same where storing does not round.
-/
class Stored (β : Type) (α : outParam Type) where
  /-- The form that is kept. -/
  store : α → β
  /-- The scalar that a kept form stands for. -/
  fetch : β → α

instance : Stored Single Float where
  store := Single.ofFloat
  fetch := Single.toFloat

end GestureStore
