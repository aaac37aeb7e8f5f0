/-
What an unquoted scalar means.

A scalar without quotes may be a truth value, nothing, a number, a point in time, or
one of two words that only mean something as keys; every other one is a text.  The
forms are those of YAML 1.1: words for truth values in three spellings each, numbers
in four bases and in groups of sixty, underscores between digits.
-/
import GestureStore.Value

namespace GestureStore
namespace Yaml

/-! ### Words -/

/-- The words for truth values. -/
def trueWords : List Text :=
  ["yes", "Yes", "YES", "true", "True", "TRUE", "on", "On", "ON"].map Text.of

/-- The words for false values. -/
def falseWords : List Text :=
  ["no", "No", "NO", "false", "False", "FALSE", "off", "Off", "OFF"].map Text.of

/-- The words for nothing. -/
def nullWords : List Text := ["", "~", "null", "Null", "NULL"].map Text.of

/-- The words that only a key can be. -/
def keyWords : List Text := ["=", "<<"].map Text.of

/-! ### Integers -/

/-- How an integer is written. -/
inductive Base where
  /-- Digits after a mark, in base two. -/
  | two (digits : Text)
  /-- Digits after a mark, in base eight. -/
  | eight (digits : Text)
  /-- Digits in base ten. -/
  | ten (digits : Text)
  /-- Digits after a mark, in base sixteen. -/
  | sixteen (digits : Text)
  /-- Groups of digits, each worth sixty of the next. -/
  | sixty (groups : List Text)

/-- Digits and underscores. -/
def isDigitOrJoin (p : CodePoint) : Bool := p.isDigit || p.is '_'

/-- A group of one or two digits below sixty. -/
def isSixtieth (t : Text) : Bool :=
  match t with
  | [a] => a.isDigit
  | [a, b] => a.isOneOf ['0', '1', '2', '3', '4', '5'] && b.isDigit
  | _ => false

/-- Several groups: the first of any digits, the others below sixty. -/
def sixtieths? (t : Text) : Option (List Text) :=
  match Text.splitOn (CodePoint.ofChar ':') t with
  | first :: next :: rest =>
    if first.all isDigitOrJoin && (next :: rest).all isSixtieth then some (first :: next :: rest)
    else none
  | _ => none

/-- The form of an integer without its sign. -/
def base? (t : Text) : Option Base :=
  match t with
  | [] => none
  | p :: rest =>
    if p.is '0' then
      match rest with
      | [] => some (.ten t)
      | q :: digits =>
        if q.is 'b' && !digits.isEmpty && digits.all (·.isOneOf ['0', '1', '_']) then some (.two digits)
        else if q.is 'x' && !digits.isEmpty && digits.all (fun d => d.hexDigit?.isSome || d.is '_') then
          some (.sixteen digits)
        else if rest.all (·.isOneOf ['0', '1', '2', '3', '4', '5', '6', '7', '_']) then some (.eight rest)
        else none
    else if !p.isDigit then none
    else if rest.all isDigitOrJoin then some (.ten t)
    else (sixtieths? t).map .sixty

/-- The digits without the underscores between them. -/
def joined (t : Text) : Text := t.filter fun p => !p.is '_'

/-- The number that digits denote in a base; there has to be a digit. -/
def valueIn (base : Nat) (t : Text) : Except Fault Nat :=
  let digits := joined t
  if digits.isEmpty then .error .badValue
  else .ok (digits.foldl (fun n p => n * base + p.hexDigit?.getD 0) 0)

/-- The number that decimal digits denote; there must not be too many of them. -/
def valueInTen (t : Text) : Except Fault Nat :=
  if Numeral.maxDigits < (joined t).length then .error .badValue else valueIn 10 t

/-- The number that an integer without its sign denotes. -/
def Base.value : Base → Except Fault Nat
  | two digits => valueIn 2 digits
  | eight digits => if (joined digits).isEmpty then .ok 0 else valueIn 8 digits
  | ten digits => valueInTen digits
  | sixteen digits => valueIn 16 digits
  | sixty groups => groups.foldlM (fun n g => do return n * 60 + (← valueInTen g)) 0

/-! ### Floating-point numbers -/

/-- How a floating-point number is written. -/
inductive Fractional where
  /-- With a point, and perhaps an exponent. -/
  | decimal (numeral : Text)
  /-- Groups of digits, each worth sixty of the next; the last one has a point. -/
  | sixty (groups : List Text)
  /-- An infinity. -/
  | infinity
  /-- Not a number. -/
  | nan

/-- Nothing, or a mark, a sign and digits. -/
def isExponent (t : Text) : Bool :=
  match t with
  | [] => true
  | [_] => false
  | mark :: sign :: digits =>
    mark.isOneOf ['e', 'E'] && sign.isOneOf ['+', '-'] && !digits.isEmpty && digits.all CodePoint.isDigit

/-- Digits after a point, with or without an exponent. -/
def isFraction (t : Text) : Bool := isExponent (t.dropWhile isDigitOrJoin)

/-- The text begins with a digit. -/
def beginsWithDigit (t : Text) : Bool := t.head?.any CodePoint.isDigit

/-- The form of a floating-point number without its sign; `signed` tells whether it had one. -/
def fractional? (signed : Bool) (t : Text) : Option Fractional :=
  let whole := t.takeWhile isDigitOrJoin
  match t.dropWhile isDigitOrJoin with
  | p :: rest =>
    if p.is '.' then
      if whole.isEmpty then
        if ["inf", "Inf", "INF"].any fun w => rest == Text.of w then some .infinity
        else if !signed && ["nan", "NaN", "NAN"].any fun w => rest == Text.of w then some .nan
        else if !signed && beginsWithDigit rest && isFraction rest then some (.decimal t)
        else none
      else if beginsWithDigit whole && isFraction rest then some (.decimal t)
      else none
    else if p.is ':' && beginsWithDigit whole then
      let groups := t.takeWhile fun c => !c.is '.'
      match t.dropWhile fun c => !c.is '.' with
      | _ :: fraction =>
        if fraction.all isDigitOrJoin then
          (sixtieths? groups).map fun gs =>
            .sixty (gs.dropLast ++ [gs.getLastD [] ++ CodePoint.ofChar '.' :: fraction])
        else none
      | [] => none
    else none
  | [] => none

/-- The number that a group of digits denotes. -/
def floatOfGroup (t : Text) : Except Fault Float :=
  match Numeral.float? (joined t) with
  | some x => .ok x
  | none => .error .badValue

/-- The sum of groups from the last on, each worth sixty of the one after it. -/
def sumOfGroups (sum : Float) (weight : Nat) : List Float → Except Fault Float
  | [] => .ok sum
  | x :: rest => do sumOfGroups (sum + x * (← Value.floatOfInt weight)) (weight * 60) rest

/-- The number that a floating-point number without its sign denotes. -/
def Fractional.value : Fractional → Except Fault Float
  | decimal numeral => floatOfGroup numeral
  | sixty groups => do sumOfGroups (floatOfInteger 0) 1 (← groups.mapM floatOfGroup).reverse
  | infinity => .ok Numeral.infinity
  | nan => .ok Numeral.nan

/-! ### Points in time -/

/-- From `least` to `most` digits at the beginning of a text, as a number, and what follows. -/
def number? (least most : Nat) (t : Text) : Option (Nat × Text) :=
  let digits := (t.take most).takeWhile CodePoint.isDigit
  if least ≤ digits.length then some (Numeral.value digits, t.drop digits.length) else none

/-- What follows a given character. -/
def after? (c : Char) (t : Text) : Option Text :=
  match t with
  | p :: rest => if p.is c then some rest else none
  | [] => none

/-- The zone that a text denotes: none, a `Z`, or a sign, hours and perhaps minutes. -/
def zone? (t : Text) : Option (Option Int) :=
  match t with
  | [] => some none
  | p :: rest =>
    if p.is 'Z' then if rest.isEmpty then some (some 0) else none
    else if p.isOneOf ['+', '-'] then do
      let (hours, rest) ← number? 1 2 rest
      let minutes ←
        match rest with
        | [] => some 0
        | _ => do
          let (minutes, rest) ← (after? ':' rest).bind (number? 2 2)
          if rest.isEmpty then some minutes else none
      return some (Double.signed (p.is '-') (60 * hours + minutes))
    else none

/-- A blank on a line. -/
def isGap (p : CodePoint) : Bool := p.is ' ' || p.is '\t'

/-- The number of millionths that digits after a point denote; further digits do not count. -/
def millionths (digits : Text) : Nat :=
  Numeral.value ((digits ++ List.replicate 6 (CodePoint.ofChar '0')).take 6)

/-- The time of day that follows a date. -/
def timeOfDay? (t : Text) : Option TimeOfDay := do
  let t ←
    match t with
    | p :: rest =>
      if p.isOneOf ['T', 't'] then some rest else if isGap p then some (rest.dropWhile isGap) else none
    | [] => none
  let (hour, t) ← number? 1 2 t
  let (minute, t) ← number? 2 2 (← after? ':' t)
  let (second, t) ← number? 2 2 (← after? ':' t)
  let (fraction, t) :=
    match after? '.' t with
    | some rest => Numeral.digits rest
    | none => ([], t)
  let zone := t.dropWhile isGap
  let offset ← zone? zone
  if t.isEmpty || !zone.isEmpty then some ⟨hour, minute, second, millionths fraction, offset⟩ else none

/-- The date and time that a text has the form of; a date alone has two digits for month and day. -/
def moment? (t : Text) : Option Moment := do
  let (year, rest) ← number? 4 4 t
  let rest ← after? '-' rest
  let (month, rest) ← number? 1 2 rest
  let rest ← after? '-' rest
  let (day, rest) ← number? 1 2 rest
  if rest.isEmpty then
    if t.length = 10 then some ⟨year, month, day, none⟩ else none
  else
    let time ← timeOfDay? rest
    some ⟨year, month, day, some time⟩

/-! ### Meaning -/

/-- What a scalar without quotes is. -/
inductive Plain where
  /-- A truth value. -/
  | bool (b : Bool)
  /-- Nothing. -/
  | null
  /-- An integer. -/
  | int (negative : Bool) (base : Base)
  /-- A floating-point number. -/
  | float (negative : Bool) (form : Fractional)
  /-- A point in time. -/
  | moment (m : Moment)
  /-- A word that only a key can be. -/
  | key
  /-- A text. -/
  | text

/-- What a scalar without quotes is. -/
def plain (t : Text) : Plain :=
  if trueWords.contains t then .bool true
  else if falseWords.contains t then .bool false
  else if nullWords.contains t then .null
  else if keyWords.contains t then .key
  else
    let (negative, body) := Numeral.sign t
    match fractional? (decide (body.length ≠ t.length)) body with
    | some form => .float negative form
    | none =>
      match base? body with
      | some base => .int negative base
      | none =>
        match moment? t with
        | some m => .moment m
        | none => .text

/-- The value of a scalar without quotes. -/
def valueOfPlain (t : Text) : Except Fault Value :=
  match plain t with
  | .bool b => .ok (.bool b)
  | .null => .ok .null
  | .int negative base => do return .int (Double.signed negative (← base.value))
  | .float negative form => do
    let x ← form.value
    return .float (if negative then -x else x)
  | .moment m => if m.isValid then .ok (.moment m) else .error .badValue
  | .key => .error .badDocument
  | .text => .ok (.text t)

end Yaml
end GestureStore
