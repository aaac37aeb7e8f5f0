/-
Values whose kind is known only when they arrive.

Trace files, settings and callers hand in values of any kind where a number, a text
or a list is expected.  What each kind counts as is decided here once: which values
hold nothing, what can be gone through item by item, and which values are numbers.
-/
import GestureStore.Fault
import GestureStore.Moment
import GestureStore.Number.Numeral

namespace GestureStore

/-- A value of any kind. -/
inductive Value where
  /-- No value. -/
  | null
  /-- A truth value. -/
  | bool (b : Bool)
  /-- An integer of any size. -/
  | int (i : Int)
  /-- A floating-point number. -/
  | float (x : Float)
  /-- A text. -/
  | text (t : Text)
  /-- A point in time. -/
  | moment (m : Moment)
  /-- A list. -/
  | list (items : List Value)
  /-- Named values, each name once. -/
  | object (fields : List (Text × Value))

namespace Value

/-- Everything counts as true but nothing, false, zero and what is empty. -/
def truthy : Value → Bool
  | null => false
  | bool b => b
  | int i => i != 0
  | float x => x != 0
  | text t => !t.isEmpty
  | moment _ => true
  | list items => !items.isEmpty
  | object fields => !fields.isEmpty

/-- The items of a value: of a text its code points, of an object its names. -/
def items : Value → Except Fault (List Value)
  | list items => .ok items
  | text t => .ok (t.map fun p => text [p])
  | object fields => .ok (fields.map fun f => text f.1)
  | null => .error .wrongKind
  | bool _ => .error .wrongKind
  | int _ => .error .wrongKind
  | float _ => .error .wrongKind
  | moment _ => .error .wrongKind

/-- The value under a name. -/
def lookup (name : Text) (fields : List (Text × Value)) : Option Value :=
  (fields.find? fun f => f.1 == name).map (·.2)

/-- The fields with a name set: a new name comes last, a known one keeps its place. -/
def assign (name : Text) (v : Value) : List (Text × Value) → List (Text × Value)
  | [] => [(name, v)]
  | f :: rest => if f.1 == name then (name, v) :: rest else f :: assign name v rest

/-- The fields of an object; nothing else has parts with names. -/
def fields : Value → Except Fault (List (Text × Value))
  | object fields => .ok fields
  | _ => .error .noSuchPart

/-- An integer as a floating-point number, if it is not too large for one. -/
def floatOfInt (i : Int) : Except Fault Float :=
  let x := floatOfInteger i
  if x.isInf then .error .outOfRange else .ok x

/-- The value as a floating-point number. -/
def toFloat : Value → Except Fault Float
  | bool b => .ok (floatOfInteger (if b then 1 else 0))
  | int i => floatOfInt i
  | float x => .ok x
  | text t => match Numeral.float? t with | some x => .ok x | none => .error .badValue
  | null => .error .wrongKind
  | moment _ => .error .wrongKind
  | list _ => .error .wrongKind
  | object _ => .error .wrongKind

/-- The value as an entry of a column of numbers, where nothing stands for what is no number. -/
def toEntry : Value → Except Fault Float
  | null => .ok Numeral.nan
  | list _ => .error .badValue
  | v => v.toFloat

/-- The integer part of a floating-point number. -/
def truncate (x : Float) : Except Fault Int :=
  match Double.ofFloat x with
  | .nan => .error .badValue
  | .infinity _ => .error .outOfRange
  | d => match d.truncate? with | some i => .ok i | none => .error .badValue

/-- The value as an integer. -/
def toInt : Value → Except Fault Int
  | bool b => .ok (if b then 1 else 0)
  | int i => .ok i
  | float x => truncate x
  | text t => match Numeral.integer? t with | some i => .ok i | none => .error .badValue
  | null => .error .wrongKind
  | moment _ => .error .wrongKind
  | list _ => .error .wrongKind
  | object _ => .error .wrongKind

end Value
end GestureStore
