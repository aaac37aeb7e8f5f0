/-
What a command works with: a disk, a supply of identifiers, and two streams of text.

A command ends by coming to its end, or early: with an exit code of its own choice,
or because a fault was not dealt with.  Whatever it has done by then stays done.

Text for the screen is cleared of terminal sequences.  The first stream takes only
what can be encoded; in the second, what cannot be encoded is escaped.
-/
import GestureStore.Storage.Disk
import GestureStore.Geometry.Gesture

namespace GestureStore

/-- How a command comes to its end before its end. -/
inductive Ending where
  /-- With an exit code. -/
  | exit (code : Nat)
  /-- With a fault that nothing dealt with. -/
  | uncaught (fault : Fault)
  deriving DecidableEq

/-- What a command has before it and leaves behind it. -/
structure Console where
  /-- The files. -/
  disk : Disk
  /-- Where new identifiers come from. -/
  supply : Supply
  /-- What was written to the first stream. -/
  out : Text
  /-- What was written to the second stream. -/
  err : Text

/-- What a command does, step by step. -/
abbrev Job (α : Type) := ExceptT Ending (StateM Console) α

namespace Job

/-- Where the reader of terminal sequences, each an escape character, a bracket, parameters and a
letter, stands. -/
inductive Sequencing where
  /-- In text. -/
  | text
  /-- After an escape character. -/
  | escape
  /-- After the bracket, the sequence so far being kept in reverse. -/
  | inside (sofar : Text)

/-- The escape character. -/
def escapePoint : CodePoint := CodePoint.ofChar '\x1b'

/-- An ASCII letter. -/
def isLetter (p : CodePoint) : Bool :=
  (0x41 ≤ p.val && p.val ≤ 0x5A) || (0x61 ≤ p.val && p.val ≤ 0x7A)

/-- What may stand between the bracket and the letter of a terminal sequence. -/
def isParameter (p : CodePoint) : Bool := p.isDigit || p.is ';' || p.is '?'

/-- The text with its terminal sequences left out. -/
def clearedFrom (s : Sequencing) : Text → Text
  | [] =>
    match s with
    | .text => []
    | .escape => [escapePoint]
    | .inside sofar => sofar.reverse
  | p :: rest =>
    match s with
    | .text => if p == escapePoint then clearedFrom .escape rest else p :: clearedFrom .text rest
    | .escape =>
      if p.is '[' then clearedFrom (.inside [p, escapePoint]) rest
      else if p == escapePoint then escapePoint :: clearedFrom .escape rest
      else escapePoint :: p :: clearedFrom .text rest
    | .inside sofar =>
      if isLetter p then clearedFrom .text rest
      else if isParameter p then clearedFrom (.inside (p :: sofar)) rest
      else if p == escapePoint then sofar.reverse ++ clearedFrom .escape rest
      else sofar.reverse ++ p :: clearedFrom .text rest

/-- The text with its terminal sequences left out. -/
def cleared (t : Text) : Text := clearedFrom .text t

/-- The text with an escape for everything that cannot be encoded. -/
def escaped (t : Text) : Text :=
  t.flatMap fun p => if p.isSurrogate then Text.of "\\u" ++ Text.lowerHex 4 p.val else [p]

/-- Write a line to the first stream. -/
def say (line : Text) : Job Unit := do
  let line := cleared line
  match Utf8.firstSurrogates line with
  | some e => throw (.uncaught (.notEncodable e))
  | none => modify fun c => { c with out := c.out ++ line ++ Text.of "\n" }

/-- Write a line to the second stream as it is. -/
def log (line : Text) : Job Unit :=
  modify fun c => { c with err := c.err ++ escaped line ++ Text.of "\n" }

/-- Write a line to the second stream. -/
def complain (line : Text) : Job Unit := log (cleared line)

/-- Complain and end. -/
def refuse (line : Text) : Job α := do
  complain (Text.of "❌ " ++ line)
  throw (.exit 1)

/-- The value of a computation, if it has not failed. -/
def orEnd (outcome : Except Fault α) : Job α :=
  match outcome with
  | .ok a => pure a
  | .error e => throw (.uncaught e)

/-- The files. -/
def disk : Job Disk := do return (← get).disk

end Job
end GestureStore
