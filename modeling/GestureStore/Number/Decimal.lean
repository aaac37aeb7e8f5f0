/-
Decimal text with a chosen number of places.

The exact value is scaled by a power of ten and rounded once, so the text is the
correctly rounded one: `0.125` has two places as `0.12`.  A sign is kept even where
every digit shown is a zero.
-/
import GestureStore.Number.Double

namespace GestureStore
namespace Double

/-- The text of what is no finite number. -/
def nonFinite : Double → Text
  | nan => Text.of "nan"
  | infinity true => Text.of "-inf"
  | infinity false => Text.of "inf"
  | finite _ _ _ => []

/-- The sign in front of a number's digits. -/
def signText (negative : Bool) : Text := if negative then Text.of "-" else []

/-- The digits of `n` with a point before the last `places` of them. -/
def withPoint (places n : Nat) : Text :=
  if places = 0 then Text.natural n
  else
    let digits := Text.paddedNatural (places + 1) n
    digits.take (digits.length - places) ++ Text.of "." ++ digits.drop (digits.length - places)

/-- The number with `places` digits after the point. -/
def fixed (places : Nat) : Double → Text
  | finite negative m q =>
    signText negative ++ withPoint places ((Ratio.ofBinary m q).scale places).round
  | x => x.nonFinite

/-- A power of ten as an exponent is written: a sign and at least two digits. -/
def exponentText (e : Int) : Text :=
  Text.of "e" ++ Text.of (if e < 0 then "-" else "+") ++ Text.paddedNatural 2 e.natAbs

/-- The number as one digit, `places` more after the point, and a power of ten. -/
def scientific (places : Nat) : Double → Text
  | finite negative m q =>
    let r := Ratio.ofBinary m q
    let (digits, e) :=
      if m = 0 then (0, 0)
      else
        let e := r.magnitude
        let n := (r.scale (places - e)).round
        -- Rounding up to the next power of ten adds a digit, which moves into the exponent.
        if Nat.pow 10 (places + 1) ≤ n then (Nat.pow 10 places, e + 1) else (n, e)
    signText negative ++ withPoint places digits ++ exponentText e
  | x => x.nonFinite

end Double
end GestureStore
