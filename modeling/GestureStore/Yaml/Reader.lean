/-
Reading a document of settings.

Mappings and lists are written by indentation or in brackets, scalars with or without
quotes.  A key stands on one line with its colon.  Anchors, tags, directives, explicit
keys and block scalars are not read.

Nodes nest, to a number of levels, so the reader carries fuel; each call uses some of the text before it
calls itself again more than a few times, so a multiple of the text's length suffices.
-/
import GestureStore.Yaml.Node
import GestureStore.Yaml.Scalar

namespace GestureStore
namespace Yaml

/-- A mark that stands alone comes next. -/
def atMark (mark : Char) (t : Text) : Bool :=
  match t with
  | p :: rest => p.is mark && atGap rest
  | [] => false

/-- One of some characters comes next. -/
def atOneOf (marks : List Char) (t : Text) : Bool := t.head?.any (·.isOneOf marks)

/-- The cursor behind one character. -/
def Cursor.next (c : Cursor) : Cursor := c.after c.rest.tail

/-- Brackets close here, or another item follows. -/
def closesItem (c : Cursor) : Bool := atOneOf [',', ']', '\x7d'] c.rest

/-- The quoted scalar behind an opening quote at a cursor. -/
def quotedAt (double : Bool) (c : Cursor) : Except Fault (Node × Cursor) := do
  let (t, rest) ← quoted double c.rest.tail
  return (.scalar t true, c.after rest)

/-- A scalar at a cursor. -/
def scalarAt (flow : Bool) (least : Nat) (c : Cursor) : Except Fault (Node × Cursor) :=
  if atOneOf ['"'] c.rest then quotedAt true c
  else if atOneOf ['\''] c.rest then quotedAt false c
  else if beginsPlain flow c.rest then
    let (t, c) := plainAt flow least c
    .ok (.scalar t false, c)
  else .error .badDocument

/-- A scalar in quotes that begins here can be read. -/
def checkQuoted (c : Cursor) : Except Fault Unit :=
  if atOneOf ['"'] c.rest then (quotedAt true c).map fun _ => () else .ok ()

/-- What is wrong where something else would have to come: perhaps a bad escape in what is there. -/
def unexpected (c : Cursor) : Fault :=
  match checkQuoted c with
  | .error e => e
  | .ok () => .badDocument

/-- The most characters a key can have. -/
def maxKeyLength : Nat := 1024

/-- What is between two cursors stands on one line, and is short enough for a key. -/
def isKey (c d : Cursor) : Bool :=
  let length := c.rest.length - d.rest.length
  length ≤ maxKeyLength && !(c.rest.take length).any isBreak

/--
Go through brackets, and one token further, as far as they can be part of a key that
begins at `start`.

Whether they are is known only at their end, so a scalar in them that cannot be read is
found before anything else is.  Where a key is `required`, they have to be part of it.
-/
def lookThrough (fuel level : Nat) (required : Bool) (start c : Cursor) : Except Fault Unit :=
  match fuel with
  | 0 => .ok ()
  | fuel + 1 =>
    let d := c.skip
    if required && !isKey start d then .error .badDocument
    else if !isKey start c || d.atEnd || d.onSeparator then .ok ()
    else if level = 0 then checkQuoted d
    else if atOneOf ['[', '\x7b'] d.rest then lookThrough fuel (level + 1) required start d.next
    else if atOneOf [']', '\x7d'] d.rest then lookThrough fuel (level - 1) required start d.next
    else if atOneOf [',', ':', '?'] d.rest || atMark '-' d.rest then
      lookThrough fuel level required start d.next
    else do
      let (_, e) ← scalarAt true 0 d
      lookThrough fuel level required start e

/-- Brackets that may be a key can be gone through. -/
def checkKey (required : Bool) (c : Cursor) : Except Fault Unit :=
  if atOneOf ['[', '\x7b'] c.rest then lookThrough (c.rest.length + 1) 1 required c c.next else .ok ()

/-! ### In brackets -/

mutual

/-- A node inside brackets, itself with no more than `depth` levels of them. -/
def flowNode (fuel depth : Nat) (c : Cursor) : Except Fault (Node × Cursor) :=
  match fuel with
  | 0 => .error .badDocument
  | fuel + 1 =>
    if c.onSeparator then .error .badDocument
    else if atOneOf ['[', '\x7b'] c.rest then
      match depth with
      | 0 => .error .tooDeep
      | depth + 1 =>
        if atOneOf ['['] c.rest then flowItems fuel depth [] c.next.skip
        else flowFields fuel depth [] c.next.skip
    else scalarAt true 0 c

/-- A key inside brackets with its value, if it has one. -/
def flowPair (fuel depth : Nat) (c : Cursor) : Except Fault (Node × Option Node × Cursor) :=
  match fuel with
  | 0 => .error .badDocument
  | fuel + 1 => do
    let (key, d) ← flowNode fuel depth c
    let e := d.skip
    if atOneOf [':'] e.rest then
      if !isKey c e then .error .badDocument
      else
        let e := e.next.skip
        if closesItem e then return (key, some .empty, e)
        else
          let (n, e) ← flowNode fuel depth e
          return (key, some n, e.skip)
    else return (key, none, e)

/-- The items of a list up to its bracket; `sofar` holds the earlier ones in reverse. -/
def flowItems (fuel depth : Nat) (sofar : List Node) (c : Cursor) : Except Fault (Node × Cursor) :=
  match fuel with
  | 0 => .error .badDocument
  | fuel + 1 =>
    if atOneOf [']'] c.rest then .ok (.list sofar.reverse, c.next)
    else do
      let (key, n, d) ← flowPair fuel depth c
      let sofar := (match n with | some n => .mapping [(key, n)] | none => key) :: sofar
      if atOneOf [','] d.rest then flowItems fuel depth sofar d.next.skip
      else if atOneOf [']'] d.rest then return (.list sofar.reverse, d.next)
      else .error (unexpected d)

/-- The pairs of a mapping up to its brace; `sofar` holds the earlier ones in reverse. -/
def flowFields (fuel depth : Nat) (sofar : List (Node × Node)) (c : Cursor) : Except Fault (Node × Cursor) :=
  match fuel with
  | 0 => .error .badDocument
  | fuel + 1 =>
    if atOneOf ['\x7d'] c.rest then .ok (.mapping sofar.reverse, c.next)
    else do
      let (key, n, d) ← flowPair fuel depth c
      let sofar := (key, n.getD .empty) :: sofar
      if atOneOf [','] d.rest then flowFields fuel depth sofar d.next.skip
      else if atOneOf ['\x7d'] d.rest then return (.mapping sofar.reverse, d.next)
      else .error (unexpected d)

end

/-! ### By indentation -/

/-- A node that begins on the current line and is no block of lines. -/
def inlineNode (fuel depth least : Nat) (c : Cursor) : Except Fault (Node × Cursor) :=
  if atOneOf ['[', '\x7b'] c.rest then flowNode fuel depth c else scalarAt false least c

/-- What a cursor finds where a key may stand. -/
inductive KeyFound where
  /-- A key; the cursor is behind its colon. -/
  | key (name : Node) (after : Cursor)
  /-- A node that is no key. -/
  | node (n : Node) (after : Cursor)

/-- A key, or a node that is none. -/
def keyAt (fuel depth least : Nat) (required : Bool) (c : Cursor) : Except Fault KeyFound := do
  checkKey required c
  let (n, d) ← inlineNode fuel depth least c
  let e := d.skip
  if !e.fresh && atMark ':' e.rest then
    if isKey c e then return .key n e.next else .error .badDocument
  else return .node n d

/-- The document has ended here, or the next one begins. -/
def atDocumentEnd (c : Cursor) : Bool := c.atEnd || c.onSeparator

/-- A node behind a mark on the same line, which cannot be a key. -/
def valueOnLine (fuel depth least : Nat) (c : Cursor) : Except Fault (Node × Cursor) := do
  let (n, d) ← inlineNode fuel depth least c
  if !d.skip.fresh && atMark ':' d.skip.rest then .error .badDocument else return (n, d)

mutual

/-- A node where a block of lines may begin; it has to be indented by `least` columns. -/
def blockNode (fuel depth least : Nat) (c : Cursor) : Except Fault (Node × Cursor) :=
  match fuel with
  | 0 => .error .badDocument
  | fuel + 1 =>
    if atDocumentEnd c || c.column < least then .ok (.empty, c)
    else if atMark '-' c.rest then
      match depth with
      | 0 => .error .tooDeep
      | depth + 1 => blockItems fuel depth c.column [] c
    else do
      match ← keyAt fuel depth least false c, depth with
      | .node n d, _ => return (n, d)
      | .key _ _, 0 => .error .tooDeep
      | .key name d, depth + 1 => blockFields fuel depth c.column [] name d

/-- The items of a list whose dashes stand in a column; `sofar` holds the earlier ones in reverse. -/
def blockItems (fuel depth column : Nat) (sofar : List Node) (c : Cursor) : Except Fault (Node × Cursor) :=
  match fuel with
  | 0 => .error .badDocument
  | fuel + 1 => do
    let (n, d) ← blockNode fuel depth (column + 1) c.next.skip
    let sofar := n :: sofar
    let e := d.skip
    if atDocumentEnd e then return (.list sofar.reverse, e)
    else if !e.fresh || column < e.column then .error (unexpected e)
    else if e.column = column && atMark '-' e.rest then blockItems fuel depth column sofar e
    else return (.list sofar.reverse, e)

/-- The value behind the colon of a key in a column. -/
def blockValue (fuel depth column : Nat) (c : Cursor) : Except Fault (Node × Cursor) :=
  match fuel with
  | 0 => .error .badDocument
  | fuel + 1 =>
    let d := c.skip
    if d.atEnd then .ok (.empty, d)
    else if d.fresh then
      if d.column = column && atMark '-' d.rest then
        match depth with
        | 0 => .error .tooDeep
        | depth + 1 => blockItems fuel depth column [] d
      else blockNode fuel depth (column + 1) d
    else valueOnLine fuel depth (column + 1) d

/--
The pairs of a mapping whose keys stand in a column, from behind a key's colon on;
`sofar` holds the earlier ones in reverse.
-/
def blockFields (fuel depth column : Nat) (sofar : List (Node × Node)) (name : Node) (c : Cursor) :
    Except Fault (Node × Cursor) :=
  match fuel with
  | 0 => .error .badDocument
  | fuel + 1 => do
    let (n, d) ← blockValue fuel depth column c
    let sofar := (name, n) :: sofar
    let e := d.skip
    if atDocumentEnd e then return (.mapping sofar.reverse, e)
    else if !e.fresh || column < e.column then .error (unexpected e)
    else if e.column < column then return (.mapping sofar.reverse, e)
    else
      match ← keyAt fuel depth (column + 1) true e with
      | .key next f => blockFields fuel depth column sofar next f
      | .node _ f => .error (if f.skip.fresh then .badDocument else unexpected f.skip)

end

/-! ### Documents -/

/-- A document may hold these. -/
def isPlainCharacter (p : CodePoint) : Bool :=
  p.val == 0x9 || p.val == 0xA || p.val == 0xD || (0x20 ≤ p.val && p.val ≤ 0x7E) || p.val == 0x85
    || (0xA0 ≤ p.val && p.val ≤ 0xD7FF) || (0xE000 ≤ p.val && p.val ≤ 0xFFFD) || 0x10000 ≤ p.val

/-- The document begins with three dashes. -/
def atStart (c : Cursor) : Bool := c.onSeparator && atOneOf ['-'] c.rest

/-- A document ends with three dots. -/
def atStop (c : Cursor) : Bool := c.onSeparator && atOneOf ['.'] c.rest

/-- The cursor behind three characters. -/
def behindSeparator (c : Cursor) : Cursor := (c.after (c.rest.drop 3)).skip

/-- The cursor behind ends of the document. -/
def behindStops (fuel : Nat) (c : Cursor) : Cursor :=
  match fuel with
  | 0 => c
  | fuel + 1 => if atStop c then behindStops fuel (behindSeparator c) else c

/-- The most levels to which lists and mappings may be nested. -/
def maxDepth : Nat := 488

/-- The node of the document at a cursor. -/
def documentNode (fuel : Nat) (c : Cursor) : Except Fault (Node × Cursor) :=
  if atStart c then
    let d := behindSeparator c
    if d.fresh || d.atEnd then blockNode fuel maxDepth 0 d else valueOnLine fuel maxDepth 0 d
  else if atStop c then .error .badDocument
  else blockNode fuel maxDepth 0 c

/-- The node of a text that holds one document. -/
def nodeOf (t : Text) : Except Fault Node := do
  if !t.all isPlainCharacter then .error .badDocument
  else
    let t := match t with | p :: rest => if Cursor.isMark p then rest else p :: rest | [] => []
    let fuel := 4 * t.length + 8
    let c := (Cursor.mk t 0 true).skip
    let (n, d) ← documentNode fuel c
    let e := behindStops fuel d.skip
    if e.atEnd then return n else .error (unexpected e)

/-- The value of a text that holds one document; an empty text is nothing. -/
def read (t : Text) : Except Fault Value := do (← nodeOf t).value

end Yaml
end GestureStore
