/-
Reading JSON.

The grammar is the usual one, with `NaN`, `Infinity` and `-Infinity` as numbers
besides.  Of two fields with one name the later value stands.  An escaped high
surrogate joins an escaped low one that follows it at once; any other surrogate
stays alone.  A number with a point or an exponent is read as the nearest double,
every other one as an integer of any size up to the digit limit.

Values nest, though only to a number of levels that the caller sets, so the reader
carries fuel; each nesting level and each item uses some of the text, and three times
as much fuel as there is text always suffices.
-/
import GestureStore.Value

namespace GestureStore
namespace Json

/-- Blanks between the tokens. -/
def isSpace (p : CodePoint) : Bool := p.isOneOf [' ', '\t', '\n', '\r']

/-- The text from its first token on. -/
def skip (t : Text) : Text := t.dropWhile isSpace

/-! ### Strings -/

/-- Where a string reader stands. -/
inductive StringState where
  /-- Between characters. -/
  | plain
  /-- After a backslash. -/
  | escape
  /-- Inside a four-digit escape, `due` digits to come. -/
  | digits (due : Nat) (value : Nat)

/-- The characters of the one-letter escapes. -/
def shortEscape? (p : CodePoint) : Option CodePoint :=
  if p.isOneOf ['"', '\\', '/'] then some p
  else if p.is 'b' then some ⟨0x8, by decide⟩
  else if p.is 'f' then some ⟨0xC, by decide⟩
  else if p.is 'n' then some ⟨0xA, by decide⟩
  else if p.is 'r' then some ⟨0xD, by decide⟩
  else if p.is 't' then some ⟨0x9, by decide⟩
  else none

/-- The unit begins a pair. -/
def isHigh (unit : Nat) : Bool := 0xD800 ≤ unit && unit < 0xDC00

/-- The unit ends a pair. -/
def isLow (unit : Nat) : Bool := 0xDC00 ≤ unit && unit < 0xE000

/-- A high surrogate and a low one as the code point they stand for together. -/
def joinSurrogates (high low : Nat) : CodePoint :=
  CodePoint.ofNat (0x10000 + (high - 0xD800) * 0x400 + (low - 0xDC00))

/-- Put an escaped unit behind the text so far; `paired` tells whether an escaped one came just before. -/
def pushUnit (paired : Bool) (unit : Nat) (sofar : Text) : Text :=
  match paired, sofar with
  | true, high :: before =>
    if isHigh high.val && isLow unit then
      joinSurrogates high.val unit :: before
    else CodePoint.ofNat unit :: sofar
  | _, _ => CodePoint.ofNat unit :: sofar

/--
The rest of a string after its opening quote, and the text after it.

`sofar` is the text so far in reverse, `paired` tells whether its last code point is
an escaped unit that has not been joined.
-/
def stringFrom (state : StringState) (paired : Bool) (sofar : Text) : Text → Option (Text × Text)
  | [] => none
  | p :: rest =>
    match state with
    | .plain =>
      if p.is '"' then some (sofar.reverse, rest)
      else if p.is '\\' then stringFrom .escape paired sofar rest
      else if p.val < 0x20 then none
      else stringFrom .plain false (p :: sofar) rest
    | .escape =>
      if p.is 'u' then stringFrom (.digits 4 0) paired sofar rest
      else
        match shortEscape? p with
        | some q => stringFrom .plain false (q :: sofar) rest
        | none => none
    | .digits due value =>
      match p.hexDigit? with
      | none => none
      | some d =>
        if due ≤ 1 then
          let unit := value * 16 + d
          let joined := pushUnit paired unit sofar
          stringFrom .plain (decide (joined.length ≠ sofar.length)) joined rest
        else stringFrom (.digits (due - 1) (value * 16 + d)) paired sofar rest

/-! ### Numbers -/

/-- The digits after a point, if a point and a digit come next. -/
def fraction (t : Text) : Text × Text :=
  match t with
  | p :: rest =>
    if p.is '.' then
      match Numeral.digits rest with
      | ([], _) => ([], t)
      | found => found
    else ([], t)
  | [] => ([], t)

/-- The exponent, if a mark and digits come next. -/
def exponent (t : Text) : Option Int × Text :=
  match t with
  | p :: rest =>
    if p.is 'e' || p.is 'E' then
      let (negative, body) := Numeral.sign rest
      match Numeral.digits body with
      | ([], _) => (none, t)
      | (ds, rest) => (some (Double.signed negative (Numeral.value ds)), rest)
    else (none, t)
  | [] => (none, t)

/-- A number without its sign; a leading zero stands alone. -/
def unsigned (negative : Bool) (t : Text) : Option (Value × Text) :=
  let (whole, rest) :=
    match t with
    | p :: after => if p.is '0' then ([p], after) else Numeral.digits t
    | [] => ([], [])
  if whole.isEmpty then none
  else
    let (part, rest) := fraction rest
    let (power, rest) := exponent rest
    if part.isEmpty && power.isNone then
      if Numeral.maxDigits < whole.length then none
      else some (.int (Double.signed negative (Numeral.value whole)), rest)
    else
      let e := power.getD 0 - part.length
      some (.float (floatOfDecimal negative (Numeral.value (whole ++ part)) e), rest)

/-- The words that stand for values. -/
def words : List (Text × Value) :=
  [(Text.of "null", .null), (Text.of "true", .bool true), (Text.of "false", .bool false),
    (Text.of "NaN", .float Numeral.nan), (Text.of "Infinity", .float Numeral.infinity),
    (Text.of "-Infinity", .float (-Numeral.infinity))]

/-- A word or a number. -/
def scalar (t : Text) : Option (Value × Text) :=
  match words.find? fun w => t.startsWith w.1 with
  | some (word, v) => some (v, t.drop word.length)
  | none =>
    match t with
    | p :: rest => if p.is '-' then unsigned true rest else unsigned false t
    | [] => none

/-! ### Values -/

/-- What is wrong with a text that is no JSON. -/
def malformed : Fault := .badValue

/-- The name of a field with its colon, and the text from the value on. -/
def fieldName (t : Text) : Except Fault (Text × Text) :=
  match t with
  | [] => .error malformed
  | p :: rest =>
    if !p.is '"' then .error malformed
    else
      match stringFrom .plain false [] rest with
      | none => .error malformed
      | some (name, rest) =>
        match skip rest with
        | [] => .error malformed
        | colon :: rest => if colon.is ':' then .ok (name, skip rest) else .error malformed

mutual

/-- The value at the beginning of a text, nested to no more than `depth` levels, and the text after it. -/
def value (fuel depth : Nat) (t : Text) : Except Fault (Value × Text) :=
  match fuel with
  | 0 => .error malformed
  | fuel + 1 =>
    match t with
    | [] => .error malformed
    | p :: rest =>
      if p.is '"' then
        match stringFrom .plain false [] rest with
        | some (s, rest) => .ok (.text s, rest)
        | none => .error malformed
      else if p.is '[' || p.is '\x7b' then
        match depth with
        | 0 => .error .tooDeep
        | depth + 1 => nested fuel depth (p.is '[') (skip rest)
      else
        match scalar t with
        | some found => .ok found
        | none => .error malformed

/-- A list or an object after its opening bracket. -/
def nested (fuel depth : Nat) (isList : Bool) (t : Text) : Except Fault (Value × Text) :=
  match fuel with
  | 0 => .error malformed
  | fuel + 1 =>
    match isList, t with
    | _, [] => .error malformed
    | true, p :: rest => if p.is ']' then .ok (.list [], rest) else itemsFrom fuel depth [] (p :: rest)
    | false, p :: rest =>
      if p.is '\x7d' then .ok (.object [], rest) else fieldsFrom fuel depth [] (p :: rest)

/-- The items of a list up to its closing bracket; `sofar` holds the earlier ones in reverse. -/
def itemsFrom (fuel depth : Nat) (sofar : List Value) (t : Text) : Except Fault (Value × Text) :=
  match fuel with
  | 0 => .error malformed
  | fuel + 1 => do
    let (v, rest) ← value fuel depth t
    match skip rest with
    | [] => .error malformed
    | p :: after =>
      if p.is ']' then return (.list (v :: sofar).reverse, after)
      else if p.is ',' then itemsFrom fuel depth (v :: sofar) (skip after)
      else .error malformed

/-- The fields of an object up to its closing brace, given the earlier ones. -/
def fieldsFrom (fuel depth : Nat) (sofar : List (Text × Value)) (t : Text) :
    Except Fault (Value × Text) :=
  match fuel with
  | 0 => .error malformed
  | fuel + 1 => do
    let (name, rest) ← fieldName t
    let (v, rest) ← value fuel depth rest
    let fields := Value.assign name v sofar
    match skip rest with
    | [] => .error malformed
    | p :: after =>
      if p.is '\x7d' then return (.object fields, after)
      else if p.is ',' then fieldsFrom fuel depth fields (skip after)
      else .error malformed

end

/-- The value that a whole text denotes; lists and objects may be nested to `depth` levels. -/
def read (depth : Nat) (t : Text) : Except Fault Value := do
  let (v, rest) ← value (3 * t.length + 3) depth (skip t)
  if (skip rest).isEmpty then return v else .error malformed

end Json
end GestureStore
