/-
The shortest decimal that reads back as the same double precision number.

The numbers that round to a given one form an interval around it, which holds its
ends exactly when the significand is even.  For one digit, two digits, and so on,
the two neighbours of the value on that decimal grid are tried; the first grid with
a neighbour inside the interval gives the digits, and of two neighbours inside it
the nearer one.
-/
import GestureStore.Number.Decimal

namespace GestureStore
namespace Double

/-- The least significand of a normal number. -/
def leastNormal : Nat := Nat.pow 2 52

/--
`4 · m` and the two ends of the interval around it, in quarters of the last place.

Below a power of two the spacing halves, so the lower end is nearer there, except
at the least exponent, where the numbers below are as far apart as those above.
-/
def quarters (m : Nat) (q : Int) : Nat × Nat × Nat :=
  let low := if m = leastNormal ∧ -1074 < q then 4 * m - 1 else 4 * m - 2
  (4 * m, low, 4 * m + 2)

/-- `a · 2 ^ q` compared with `g · 10 ^ k`, both brought to integers. -/
def compareScaled (a : Nat) (q : Int) (g : Nat) (k : Int) : Ordering :=
  compare (a * Nat.pow 2 q.toNat * Nat.pow 10 (-k).toNat) (g * Nat.pow 10 k.toNat * Nat.pow 2 (-q).toNat)

/-- The decimal `g · 10 ^ k` reads back as `m · 2 ^ q`. -/
def readsBack (m : Nat) (q : Int) (g : Nat) (k : Int) : Bool :=
  let (_, low, high) := quarters m q
  let below := compareScaled low (q - 2) g k
  let above := compareScaled high (q - 2) g k
  (below == .lt && above == .gt) || (m % 2 == 0 && (below == .eq || above == .eq))

/-- The digits `g` and exponent `k` of the neighbour that is taken with `n` digits, if any. -/
def withDigits (m : Nat) (q : Int) (n : Nat) : Option (Nat × Int) :=
  let r := Ratio.ofBinary m q
  let k := r.magnitude + 1 - n
  let scaled := r.scale (-k)
  let under := scaled.num / scaled.den
  let nearest := scaled.round
  let other := if nearest = under then under + 1 else under
  if readsBack m q nearest k then some (nearest, k)
  else if readsBack m q other k then some (other, k)
  else none

/-- Seventeen digits always suffice. -/
def maxDigits : Nat := 17

/-- The digits and the exponent of the shortest decimal that reads back. -/
def shortest (m : Nat) (q : Int) : Nat × Int :=
  ((List.range maxDigits).findSome? fun n => withDigits m q (n + 1)).getD (m, q)

/-- Digits without the zeros at their end, and how many those were. -/
def stripZeros (digits : Text) : Text × Nat :=
  let kept := (digits.reverse.dropWhile (·.is '0')).reverse
  (kept, digits.length - kept.length)

/--
The shortest text that reads back: with a point, and positional as long as the
point stands at most 16 places after the first digit and fewer than four before it.
-/
def shortestText : Double → Text
  | finite negative m q =>
    if m = 0 then signText negative ++ Text.of "0.0"
    else
      let (g, k) := shortest m q
      let (digits, dropped) := stripZeros (Text.natural g)
      -- The place of the point, counted from before the first digit.
      let point : Int := digits.length + (k + dropped)
      let zeros := fun (n : Int) => List.replicate n.toNat (CodePoint.ofChar '0')
      let body :=
        if -4 < point ∧ point ≤ 16 then
          if point ≤ 0 then Text.of "0." ++ zeros (-point) ++ digits
          else if (digits.length : Int) ≤ point then
            digits ++ zeros (point - digits.length) ++ Text.of ".0"
          else digits.take point.toNat ++ Text.of "." ++ digits.drop point.toNat
        else
          let fraction := if digits.length ≤ 1 then [] else Text.of "." ++ digits.drop 1
          digits.take 1 ++ fraction ++ exponentText (point - 1)
      signText negative ++ body
  | x => x.nonFinite

end Double
end GestureStore
