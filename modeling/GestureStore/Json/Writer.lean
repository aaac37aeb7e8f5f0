/-
Writing JSON.

All text is ASCII: everything from DEL up is escaped, what lies beyond the first
plane as a pair of surrogates.  Written wide, every item and field has a line of
its own, indented by two blanks for each level; an empty list or object stays on
its line.
-/
import GestureStore.Value
import GestureStore.Number.Shortest

namespace GestureStore
namespace Json

/-- A unit of sixteen bits as an escape. -/
def unitEscape (n : Nat) : Text := Text.of "\\u" ++ Text.lowerHex 4 n

/-- A code point inside a string. -/
def escaped (p : CodePoint) : Text :=
  if p.is '"' then Text.of "\\\""
  else if p.is '\\' then Text.of "\\\\"
  else if p.is '\n' then Text.of "\\n"
  else if p.is '\r' then Text.of "\\r"
  else if p.is '\t' then Text.of "\\t"
  else if p.val = 0x8 then Text.of "\\b"
  else if p.val = 0xC then Text.of "\\f"
  else if 0x20 ≤ p.val ∧ p.val < 0x7F then [p]
  else if p.val < 0x10000 then unitEscape p.val
  else
    let n := p.val - 0x10000
    unitEscape (0xD800 + n / 0x400) ++ unitEscape (0xDC00 + n % 0x400)

/-- A text as a string. -/
def string (t : Text) : Text := Text.of "\"" ++ t.flatMap escaped ++ Text.of "\""

/-- A floating-point number. -/
def number (x : Float) : Text :=
  match Double.ofFloat x with
  | .nan => Text.of "NaN"
  | .infinity true => Text.of "-Infinity"
  | .infinity false => Text.of "Infinity"
  | d => d.shortestText

/-- What stands between two parts of a list or object. -/
inductive Layout where
  /-- All on one line. -/
  | narrow
  /-- Every part on a line of its own, `depth` levels in. -/
  | wide (depth : Nat)

namespace Layout

/-- The layout one level further in. -/
def deeper : Layout → Layout
  | narrow => narrow
  | wide depth => wide (depth + 1)

/-- The break before a part. -/
def lineBreak : Layout → Text
  | narrow => []
  | wide depth => CodePoint.ofChar '\n' :: List.replicate (2 * depth) (CodePoint.ofChar ' ')

/-- What separates two parts. -/
def comma (l : Layout) : Text :=
  match l with
  | narrow => Text.of ", "
  | wide _ => Text.of "," ++ l.lineBreak

/-- Parts in brackets. -/
def bracketed (l : Layout) (opening closing : String) (parts : List Text) : Text :=
  if parts.isEmpty then Text.of opening ++ Text.of closing
  else
    Text.of opening ++ l.deeper.lineBreak ++ Text.joinWith l.deeper.comma parts ++ l.lineBreak
      ++ Text.of closing

end Layout

mutual

/-- A value in a layout. -/
def render (l : Layout) : Value → Text
  | .null => Text.of "null"
  | .bool true => Text.of "true"
  | .bool false => Text.of "false"
  | .int i => Text.integer i
  | .float x => number x
  | .text t => string t
  | .moment m => string m.text
  | .list items => l.bracketed "[" "]" (renderItems l.deeper items)
  | .object fields => l.bracketed "\x7b" "\x7d" (renderFields l.deeper fields)

/-- The items of a list. -/
def renderItems (l : Layout) : List Value → List Text
  | [] => []
  | v :: rest => render l v :: renderItems l rest

/-- The fields of an object. -/
def renderFields (l : Layout) : List (Text × Value) → List Text
  | [] => []
  | (name, v) :: rest => (string name ++ Text.of ": " ++ render l v) :: renderFields l rest

end

/-- A value with every part on a line of its own. -/
def renderWide (v : Value) : Text := render (.wide 0) v

/-- A value on one line. -/
def renderNarrow (v : Value) : Text := render .narrow v

end Json
end GestureStore
