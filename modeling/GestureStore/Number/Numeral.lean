/-
Numbers written as text.

Blanks around a numeral do not count, digits may come from any script, and a single
underscore may stand between two digits.  Of the ASCII characters only the six usual
ones are blanks here: the information separators are not.
-/
import GestureStore.Number.Double
import GestureStore.Text.Blank
import GestureStore.Text.DecimalDigit

namespace GestureStore
namespace Numeral

/-- An integer of more digits than this is refused. -/
def maxDigits : Nat := 4300

/-- The ASCII character that a blank or digit of any script stands for. -/
def plainForm (p : CodePoint) : CodePoint :=
  if p.val < 0x80 then p
  else if p.isBlank then CodePoint.ofChar ' '
  else
    match p.decimal? with
    | some d => ⟨0x30 + d % 10, by omega⟩
    | none => p

/-- The text with blanks and digits in ASCII, and without blanks at its two ends. -/
def normalize (t : Text) : Text :=
  Text.trim CodePoint.isAsciiBlank (t.map plainForm)

/-- Every underscore stands between two digits; `afterDigit` tells what came before. -/
def underscoresFit (afterDigit : Bool) : Text → Bool
  | [] => true
  | p :: rest =>
    if p.is '_' then
      afterDigit && (match rest with | [] => false | d :: _ => d.isDigit) && underscoresFit false rest
    else underscoresFit p.isDigit rest

/-- The text without its underscores, where each of them stands between two digits. -/
def joinDigits? (t : Text) : Option Text :=
  if underscoresFit false t then some (t.filter fun p => !p.is '_') else none

/-- The number that digits denote. -/
def value (digits : Text) : Nat := digits.foldl (fun n p => n * 10 + (p.digit?).getD 0) 0

/-- The digits at the beginning of a text, and what follows them. -/
def digits (t : Text) : Text × Text := (t.takeWhile CodePoint.isDigit, t.dropWhile CodePoint.isDigit)

/-- The sign at the beginning of a text, and what follows it. -/
def sign : Text → Bool × Text
  | [] => (false, [])
  | p :: rest => if p.is '-' then (true, rest) else if p.is '+' then (false, rest) else (false, p :: rest)

/-- The integer that a text denotes. -/
def integer? (t : Text) : Option Int := do
  let (negative, body) := sign (← joinDigits? (normalize t))
  let (ds, rest) := digits body
  if ds.isEmpty || !rest.isEmpty || maxDigits < ds.length then none
  else some (Double.signed negative (value ds))

/-- The exponent part of a numeral: nothing, or a mark, a sign and digits up to the end. -/
def exponent? : Text → Option Int
  | [] => some 0
  | p :: rest =>
    if p.is 'e' || p.is 'E' then
      let (negative, body) := sign rest
      let (ds, rest) := digits body
      if ds.isEmpty || !rest.isEmpty then none else some (Double.signed negative (value ds))
    else none

/-- A numeral without a sign: digits with or without a point, and an exponent. -/
def magnitude? (negative : Bool) (t : Text) : Option Float :=
  let (whole, rest) := digits t
  let (fraction, rest) :=
    match rest with
    | p :: after => if p.is '.' then digits after else ([], rest)
    | [] => ([], [])
  if whole.isEmpty && fraction.isEmpty then none
  else
    (exponent? rest).map fun e =>
      floatOfDecimal negative (value (whole ++ fraction)) (e - fraction.length)

/-- Infinity. -/
def infinity : Float := floatOfDecimal false 1 (decimalReach + 1)

/-- Not a number. -/
def nan : Float := infinity - infinity

/-- The floating-point number that a text denotes; letters may have either case. -/
def float? (t : Text) : Option Float := do
  let (negative, body) := sign (← joinDigits? (normalize t))
  let word := body.map CodePoint.toLower
  if word == Text.of "inf" || word == Text.of "infinity" then
    some (if negative then -infinity else infinity)
  else if word == Text.of "nan" then some nan
  else magnitude? negative body

end Numeral
end GestureStore
