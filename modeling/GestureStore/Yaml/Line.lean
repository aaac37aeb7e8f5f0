/-
Lines of a document: breaks, blanks, comments and separators.

A cursor is the part of the document that is still to be read, with its column and
with whether a line was ended since the last token.  Tabs are not among what is
skipped, so where a token is expected none can stand.
-/
import GestureStore.Text

namespace GestureStore
namespace Yaml

/-- The code points that end a line. -/
def isBreak (p : CodePoint) : Bool :=
  p.is '\n' || p.is '\r' || p.val == 0x85 || p.val == 0x2028 || p.val == 0x2029

/-- A break as it counts in a text: those of Unicode stay what they are. -/
def normalBreak (p : CodePoint) : CodePoint :=
  if p.val = 0x2028 ∨ p.val = 0x2029 then p else CodePoint.ofChar '\n'

/-- The text has ended, or a blank or break comes next. -/
def atGap (t : Text) : Bool :=
  match t with
  | [] => true
  | p :: _ => p.is ' ' || p.is '\t' || isBreak p

/-- Three dashes or dots that stand alone, as they do between documents. -/
def atSeparator (t : Text) : Bool :=
  match t with
  | a :: b :: c :: rest =>
    ((a.is '-' && b.is '-' && c.is '-') || (a.is '.' && b.is '.' && c.is '.')) && atGap rest
  | _ => false

/-- How far a document has been read. -/
structure Cursor where
  /-- What is still to be read. -/
  rest : Text
  /-- The column of its beginning. -/
  column : Nat
  /-- A line was ended since the last token. -/
  fresh : Bool

namespace Cursor

/-- Everything has been read. -/
def atEnd (c : Cursor) : Bool := c.rest.isEmpty

/-- The mark that a byte stream may begin with takes no column. -/
def isMark (p : CodePoint) : Bool := p.val == 0xFEFF

/-- The column after a text that began in a given one. -/
def columnAfter (column : Nat) (t : Text) : Nat :=
  t.foldl (fun k p => if isBreak p then 0 else if isMark p then k else k + 1) column

/-- The cursor after a token of which `rest` is left. -/
def after (c : Cursor) (rest : Text) : Cursor :=
  let token := c.rest.take (c.rest.length - rest.length)
  ⟨rest, columnAfter c.column token, false⟩

/-- The cursor at the next token, given whether it stands in a comment. -/
def skipFrom (comment fresh : Bool) (column : Nat) : Text → Cursor
  | [] => ⟨[], column, fresh⟩
  | p :: rest =>
    if isBreak p then skipFrom false true 0 rest
    else if comment then skipFrom true fresh (column + 1) rest
    else if p.is ' ' then skipFrom false fresh (column + 1) rest
    else if p.is '#' then skipFrom true fresh (column + 1) rest
    else ⟨p :: rest, column, fresh⟩

/-- The cursor at the next token. -/
def skip (c : Cursor) : Cursor := skipFrom false c.fresh c.column c.rest

/-- A separator begins here. -/
def onSeparator (c : Cursor) : Bool := c.column == 0 && atSeparator c.rest

end Cursor

end Yaml
end GestureStore
