/-
How a value is shown.

Messages show texts in quotes; a value that is taken as a text is itself where it is
one already, and shown otherwise.
-/
import GestureStore.Value
import GestureStore.Text.Quoted
import GestureStore.Number.Shortest

namespace GestureStore
namespace Value

/-- An integer in decimal digits, unless it has too many of them to be read back. -/
def digitsOf (i : Int) : Except Fault Text :=
  if Nat.pow 10 Numeral.maxDigits ≤ i.natAbs then .error .badValue else .ok (Text.integer i)

mutual

/-- The value as it appears in a message. -/
def shown : Value → Except Fault Text
  | null => .ok (Text.of "None")
  | bool true => .ok (Text.of "True")
  | bool false => .ok (Text.of "False")
  | int i => digitsOf i
  | float x => .ok (Double.ofFloat x).shortestText
  | text t => .ok t.quoted
  | moment m => .ok m.described
  | list items => do
    return Text.of "[" ++ Text.joinWith (Text.of ", ") (← shownItems items) ++ Text.of "]"
  | object fields => do
    return Text.of "\x7b" ++ Text.joinWith (Text.of ", ") (← shownFields fields) ++ Text.of "\x7d"

/-- The items of a list, each as it appears in a message. -/
def shownItems : List Value → Except Fault (List Text)
  | [] => .ok []
  | v :: rest => do return (← shown v) :: (← shownItems rest)

/-- The fields of an object, each as it appears in a message. -/
def shownFields : List (Text × Value) → Except Fault (List Text)
  | [] => .ok []
  | (name, v) :: rest => do
    return (Text.quoted name ++ Text.of ": " ++ (← shown v)) :: (← shownFields rest)

end

/-- The value as a text. -/
def asText : Value → Except Fault Text
  | text t => .ok t
  | moment m => .ok m.text
  | v => v.shown

/-- The policy with a name among texts, or why a value is none. -/
def toNamed (ofName? : Text → Option α) (unknown : Text → Fault) (v : Value) : Except Fault α := do
  let named := match v with | text t => ofName? t | _ => none
  match named with
  | some policy => return policy
  | none => .error (unknown (← v.shown))

/-- The sequence policy that a value names. -/
def toSequence (v : Value) : Except Fault Sequence := v.toNamed Sequence.ofName? .unknownSequence

/-- The orientation policy that a value names. -/
def toOrientation (v : Value) : Except Fault Orientation :=
  v.toNamed Orientation.ofName? .unknownOrientation

end Value
end GestureStore
