/-
Writing a document of settings.

A document is a mapping, one key to a line.  A text stands without quotes where it
reads back as that text; in single quotes where nothing in it needs an escape; and in
double quotes otherwise, with everything but printable ASCII escaped.  A scalar that
goes past the width of a line is continued on the next, at a blank or behind an
escape, so that reading joins it again.
-/
import GestureStore.Yaml.Plain
import GestureStore.Yaml.Line
import GestureStore.Yaml.Scalar

namespace GestureStore
namespace Yaml

/-- A line is broken once it is longer than this. -/
def lineWidth : Nat := 80

/-- The beginning of a continued line. -/
def margin : Text := Text.of "  "

/-- A break, and the beginning of the next line. -/
def nextLine : Text := Text.of "\n" ++ margin

/-! ### The choice of quotes -/

/-- What has to be known of a text to choose its quotes. -/
structure Features where
  /-- It begins or ends with a blank or a break. -/
  outerGap : Bool
  /-- A blank follows a break. -/
  indented : Bool
  /-- A break follows a blank. -/
  trailing : Bool
  /-- It has a break. -/
  broken : Bool
  /-- It has something besides printable ASCII and line feeds. -/
  special : Bool
  /-- Something in it would be taken for a mark. -/
  marked : Bool

/-- Printable ASCII. -/
def isPrintableAscii (p : CodePoint) : Bool := 0x20 ≤ p.val && p.val ≤ 0x7E

/-- A blank or a break, as they count between words. -/
def isGapPoint (p : CodePoint) : Bool := p.is ' ' || isBreak p

/-- Some code point is followed by another one of given kinds. -/
def hasPair (first second : CodePoint → Bool) : Text → Bool
  | p :: q :: rest => (first p && second q) || hasPair first second (q :: rest)
  | _ => false

/-- A colon before a gap, or a hash behind one, stands inside the text. -/
def hasInnerMark : Text → Bool
  | p :: q :: rest =>
    (q.is ':' && atGap rest) || (q.is '#' && (p.is ' ' || p.is '\t' || isBreak p || p.val == 0))
      || hasInnerMark (q :: rest)
  | _ => false

/-- The text begins with a mark. -/
def hasOuterMark (t : Text) : Bool :=
  match t with
  | [] => false
  | p :: rest =>
    t.startsWith (Text.of "---") || t.startsWith (Text.of "...")
      || p.isOneOf ['#', ',', '[', ']', '\x7b', '\x7d', '&', '*', '!', '|', '>', '\'', '"', '%', '@', '\x60']
      || (p.isOneOf ['?', ':', '-'] && (atGap rest || rest.head?.any fun q => q.val == 0))

/-- What there is in a text. -/
def features (t : Text) : Features where
  outerGap := t.head?.any isGapPoint || t.getLast?.any isGapPoint
  indented := hasPair isBreak (·.is ' ') t
  trailing := hasPair (·.is ' ') isBreak t
  broken := t.any isBreak
  special := t.any fun p => !(p.is '\n' || isPrintableAscii p)
  marked := hasOuterMark t || hasInnerMark t

/-- The styles of a scalar. -/
inductive Style where
  /-- Without quotes. -/
  | plain
  /-- In single quotes. -/
  | single
  /-- In double quotes. -/
  | double
  deriving DecidableEq

/-- The text is what it means without quotes. -/
def meansText (t : Text) : Bool := match plain t with | .text => true | _ => false

/-- The style for a text. -/
def styleFor (t : Text) : Style :=
  let f := features t
  if f.special || f.trailing then .double
  else if meansText t && !t.isEmpty && !f.outerGap && !f.indented && !f.broken && !f.marked then .plain
  else if f.indented then .double
  else .single

/-! ### Runs -/

/-- A piece of a text. -/
inductive Piece where
  /-- Characters without blanks and breaks. -/
  | word (t : Text)
  /-- Some blanks. -/
  | blanks (n : Nat)
  /-- Some line feeds. -/
  | breaks (n : Nat)

/-- The pieces of a text, given the next character in front of them. -/
def Piece.before (p : CodePoint) (pieces : List Piece) : List Piece :=
  if p.is ' ' then
    match pieces with
    | blanks n :: rest => blanks (n + 1) :: rest
    | pieces => blanks 1 :: pieces
  else if isBreak p then
    match pieces with
    | breaks n :: rest => breaks (n + 1) :: rest
    | pieces => breaks 1 :: pieces
  else
    match pieces with
    | word t :: rest => word (p :: t) :: rest
    | pieces => word [p] :: pieces

/-- The pieces of a text. -/
def pieces (t : Text) : List Piece := t.foldr Piece.before []

/-- Blanks at a column; a single one may become a break. -/
def writtenBlanks (mayBreak : Bool) (column n : Nat) : Text :=
  if n = 1 && mayBreak && lineWidth < column then nextLine else List.replicate n (CodePoint.ofChar ' ')

/-- A single quote is written twice. -/
def doubledQuotes (t : Text) : Text := t.flatMap fun p => if p.is '\'' then [p, p] else [p]

/-- The pieces of a text in a style without escapes; `inner` tells that there are pieces before. -/
def writtenPieces (quote : Bool) (inner : Bool) (column : Nat) : List Piece → Text
  | [] => []
  | piece :: rest =>
    let written :=
      match piece with
      | .word t => if quote then doubledQuotes t else t
      | .blanks n => writtenBlanks (inner && !rest.isEmpty) column n
      | .breaks n => List.replicate (n + 1) (CodePoint.ofChar '\n') ++ margin
    written ++ writtenPieces quote true (Cursor.columnAfter column written) rest

/-! ### Escapes -/

/-- A code point as an escape. -/
def escape (p : CodePoint) : Text :=
  match shortEscapes.find? fun e => p.val == e.2 && !(e.1 == '\t' || e.1 == ' ' || e.1 == '/') with
  | some e => [CodePoint.ofChar '\\', CodePoint.ofChar e.1]
  | none =>
    if p.val < 0x100 then Text.of "\\x" ++ Text.upperHex 2 p.val
    else if p.val < 0x10000 then Text.of "\\u" ++ Text.upperHex 4 p.val
    else Text.of "\\U" ++ Text.upperHex 8 p.val

/-- Written as it is between double quotes. -/
def isSafe (p : CodePoint) : Bool := isPrintableAscii p && !p.is '"' && !p.is '\\'

/-- The end of a line that goes on; a blank at the beginning of the next needs a backslash. -/
def continued (rest : Text) : Text :=
  Text.of "\\" ++ nextLine ++ (if rest.head?.any (·.is ' ') then Text.of "\\" else [])

/--
A text between double quotes, at a column.

`inner` tells that there are characters before, `escaped` that the last of them was
written as an escape.  A line can be broken before a blank and on both sides of what
follows an escape, but not before the last character.
-/
def writtenDouble (inner escaped : Bool) (column : Nat) : Text → Text
  | [] => []
  | p :: rest =>
    let mayBreak := inner && !rest.isEmpty
    if isSafe p then
      if mayBreak && (p.is ' ' || escaped) && lineWidth < column then
        let lead := continued (p :: rest)
        lead ++ p :: writtenDouble true false (Cursor.columnAfter column lead + 1) rest
      else p :: writtenDouble true false (column + 1) rest
    else
      let e := escape p
      if mayBreak && lineWidth < column + e.length - 1 then
        let lead := e ++ continued rest
        lead ++ writtenDouble true true (Cursor.columnAfter column lead) rest
      else e ++ writtenDouble true true (column + e.length) rest

/-! ### Documents -/

/-- A text at a column. -/
def writtenText (column : Nat) (t : Text) : Text :=
  match styleFor t with
  | .plain => writtenPieces false false column (pieces t)
  | .single => Text.of "'" ++ writtenPieces true false (column + 1) (pieces t) ++ Text.of "'"
  | .double => Text.of "\"" ++ writtenDouble false false (column + 1) t ++ Text.of "\""

/-- A value that a field of a document can have. -/
inductive Entry where
  /-- A text. -/
  | text (t : Text)
  /-- A truth value. -/
  | bool (b : Bool)

/-- The line, or lines, of a field. -/
def writtenField (name : Text) (entry : Entry) : Text :=
  let lead := name ++ Text.of ": "
  let body :=
    match entry with
    | .text t => writtenText lead.length t
    | .bool b => Text.of (if b then "true" else "false")
  lead ++ body ++ Text.of "\n"

/-- A mapping, its keys being words. -/
def written (fields : List (Text × Entry)) : Text := fields.flatMap fun f => writtenField f.1 f.2

end Yaml
end GestureStore
