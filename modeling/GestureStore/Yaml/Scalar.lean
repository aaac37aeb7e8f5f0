/-
Reading scalars.

In quotes, a run of blanks that meets the end of a line is dropped together with the
break; a single break counts as a blank, of several all but the first stay.  The same
holds without quotes, where the scalar ends at a comment, at a colon before a gap, or
at a line that is not indented enough.  Double quotes know escapes, and among them
one for a break that does not count.
-/
import GestureStore.Fault
import GestureStore.Yaml.Line

namespace GestureStore
namespace Yaml

/-! ### In quotes -/

/-- Where the reader of a quoted scalar stands. -/
inductive Reading where
  /-- After a character. -/
  | text
  /-- After blanks, here in reverse. -/
  | blanks (run : Text)
  /-- After breaks: the first, and the others in reverse. -/
  | breaks (first : CodePoint) (more : Text)
  /-- After an escaped break and the breaks that follow it, in reverse. -/
  | joined (more : Text)
  /-- After a backslash. -/
  | escape
  /-- Inside an escape with `due` digits to come. -/
  | digits (due value : Nat)
  /-- After a single quote inside single quotes. -/
  | quote

/-- The text so far, in reverse, with the blanks and breaks that have been seen. -/
def Reading.settled (r : Reading) (sofar : Text) : Text :=
  match r with
  | blanks run => run ++ sofar
  | breaks first more =>
    if !first.is '\n' then more ++ first :: sofar
    else if more.isEmpty then CodePoint.ofChar ' ' :: sofar
    else more ++ sofar
  | joined more => more ++ sofar
  | _ => sofar

/-- A blank comes. -/
def Reading.blank (p : CodePoint) : Reading → Reading
  | blanks run => blanks (p :: run)
  | breaks first more => breaks first more
  | joined more => joined more
  | _ => blanks [p]

/-- A break comes. -/
def Reading.lineBreak (p : CodePoint) : Reading → Reading
  | breaks first more => breaks first (normalBreak p :: more)
  | joined more => joined (normalBreak p :: more)
  | _ => breaks (normalBreak p) []

/-- The characters of the one-letter escapes. -/
def shortEscapes : List (Char × Nat) :=
  [('0', 0x0), ('a', 0x7), ('b', 0x8), ('t', 0x9), ('\t', 0x9), ('n', 0xA), ('v', 0xB), ('f', 0xC),
    ('r', 0xD), ('e', 0x1B), (' ', 0x20), ('"', 0x22), ('/', 0x2F), ('\\', 0x5C), ('N', 0x85),
    ('_', 0xA0), ('L', 0x2028), ('P', 0x2029)]

/-- The escapes with digits, and how many they have. -/
def longEscapes : List (Char × Nat) := [('x', 2), ('u', 4), ('U', 8)]

/-- What a list says about a code point. -/
def entry? (entries : List (Char × Nat)) (p : CodePoint) : Option Nat :=
  (entries.find? fun e => p.is e.1).map (·.2)

/-- The code point with a number, if there is one. -/
def codePoint (n : Nat) : Except Fault CodePoint :=
  if h : n < 0x110000 then .ok ⟨n, h⟩ else if n < Nat.pow 2 31 then .error .badValue else .error .outOfRange

/-- The rest of a quoted scalar after its opening quote, and the text after it. -/
def quotedFrom (double : Bool) (r : Reading) (sofar : Text) : Text → Except Fault (Text × Text)
  | [] => match r with | .quote => .ok (sofar.reverse, []) | _ => .error .badDocument
  | p :: rest =>
    match r with
    | .quote =>
      if p.is '\'' then quotedFrom double .text (p :: sofar) rest else .ok (sofar.reverse, p :: rest)
    | .escape =>
      match entry? shortEscapes p, entry? longEscapes p with
      | some n, _ =>
        match codePoint n with
        | .ok q => quotedFrom double .text (q :: sofar) rest
        | .error e => .error e
      | none, some due => quotedFrom double (.digits due 0) sofar rest
      | none, none =>
        if isBreak p && !atSeparator rest then quotedFrom double (.joined []) sofar rest
        else .error .badDocument
    | .digits due value =>
      match p.hexDigit? with
      | none => .error .badDocument
      | some d =>
        let value := value * 16 + d
        if 1 < due then quotedFrom double (.digits (due - 1) value) sofar rest
        else
          match codePoint value with
          | .ok q => quotedFrom double .text (q :: sofar) rest
          | .error e => .error e
    | r =>
      if isBreak p then
        if atSeparator rest then .error .badDocument else quotedFrom double (r.lineBreak p) sofar rest
      else if p.is ' ' || p.is '\t' then quotedFrom double (r.blank p) sofar rest
      else
        let sofar := r.settled sofar
        if double && p.is '"' then .ok (sofar.reverse, rest)
        else if !double && p.is '\'' then quotedFrom double .quote sofar rest
        else if double && p.is '\\' then quotedFrom double .escape sofar rest
        else quotedFrom double .text (p :: sofar) rest

/-- The quoted scalar after an opening quote. -/
def quoted (double : Bool) (t : Text) : Except Fault (Text × Text) := quotedFrom double .text [] t

/-! ### Without quotes -/

/-- The characters that no scalar without quotes begins with, unless in the way `beginsPlain` allows. -/
def indicators : List Char :=
  ['-', '?', ':', ',', '[', ']', '\x7b', '\x7d', '#', '&', '*', '!', '|', '>', '\'', '"', '%', '@',
    '\x60']

/-- The characters that end a scalar inside brackets. -/
def flowMarks : List Char := [',', '?', '[', ']', '\x7b', '\x7d']

/-- A scalar without quotes can begin here; `flow` tells whether it stands inside brackets. -/
def beginsPlain (flow : Bool) (t : Text) : Bool :=
  match t with
  | [] => false
  | p :: rest =>
    (!p.isOneOf indicators && !atGap t)
      || (!atGap rest && (p.is '-' || (!flow && p.isOneOf ['?', ':'])))

/-- A colon here ends a scalar. -/
def colonEnds (flow : Bool) (rest : Text) : Bool :=
  atGap rest || (flow && rest.head?.any (·.isOneOf [',', '[', ']', '\x7b', '\x7d']))

/-- A scalar up to where a gap, a colon or a mark ends it, and what follows. -/
def word (flow : Bool) : Text → Text × Text
  | [] => ([], [])
  | p :: rest =>
    if atGap (p :: rest) || (p.is ':' && colonEnds flow rest) || (flow && p.isOneOf flowMarks) then
      ([], p :: rest)
    else
      let found := word flow rest
      (p :: found.1, found.2)

/-- Breaks and blanks from the beginning of a line on: the breaks in reverse, and what follows. -/
def breaksFrom (sofar : Text) : Text → Option Text × Text
  | [] => (some sofar, [])
  | p :: rest =>
    if p.is ' ' then breaksFrom sofar rest
    else if isBreak p then
      if atSeparator rest then (none, rest) else breaksFrom (normalBreak p :: sofar) rest
    else (some sofar, p :: rest)

/-- What stands between two words: the gap as it counts, if the scalar can go on after it. -/
def gap (t : Text) : Option Text × Text :=
  let blanks := t.takeWhile (·.is ' ')
  match t.dropWhile (·.is ' ') with
  | [] => (if blanks.isEmpty then none else some blanks, [])
  | p :: rest =>
    if isBreak p then
      if atSeparator rest then (none, rest)
      else
        match breaksFrom [] rest with
        | (none, rest) => (none, rest)
        | (some more, rest) =>
          let first := normalBreak p
          if !first.is '\n' then (some (first :: more.reverse), rest)
          else if more.isEmpty then (some [CodePoint.ofChar ' '], rest)
          else (some more.reverse, rest)
    else (if blanks.isEmpty then none else some blanks, p :: rest)

/--
A scalar without quotes from a word on, given what stands before it.

Lines after the first belong to it if they are indented by `least` columns, which
inside brackets does not matter.
-/
def plainFrom (fuel : Nat) (flow : Bool) (least : Nat) (sofar before : Text) (c : Cursor) :
    Text × Cursor :=
  match fuel with
  | 0 => (sofar, c)
  | fuel + 1 =>
    match c.rest with
    | [] => (sofar, c)
    | p :: _ =>
      if p.is '#' then (sofar, c)
      else
        match word flow c.rest with
        | ([], _) => (sofar, c)
        | (w, rest) =>
          let sofar := sofar ++ before ++ w
          let c := c.after rest
          let (between, rest) := gap c.rest
          let crossed := (c.rest.take (c.rest.length - rest.length)).any isBreak
          let next := { c.after rest with fresh := crossed }
          match between with
          | none => (sofar, next)
          | some between =>
            if !flow && next.column < least then (sofar, next)
            else plainFrom fuel flow least sofar between next

/-- The scalar without quotes at a cursor. -/
def plainAt (flow : Bool) (least : Nat) (c : Cursor) : Text × Cursor :=
  plainFrom (c.rest.length + 1) flow least [] [] c

end Yaml
end GestureStore
