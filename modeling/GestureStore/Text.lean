/-
Text, as names, labels, paths and file contents hand it to the program.

A text is a list of code points, and a code point is any number below 0x110000:
a lone surrogate is one too.  Whether such a text can be stored is a question that
is asked when it is encoded, not when it is held.

Two texts are ordered by their first differing code point.  That is the order in
which predictions with equal scores and the entries of a store are listed.
-/
namespace GestureStore

/-- A code point, surrogates included. -/
abbrev CodePoint := Fin 0x110000

/-- A list of code points. -/
abbrev Text := List CodePoint

namespace CodePoint

/-- The code point of a character. -/
def ofChar (c : Char) : CodePoint :=
  ⟨c.toNat, by
    have h := c.valid
    simp only [UInt32.isValidChar, Nat.isValidChar] at h
    show c.val.toNat < 0x110000
    omega⟩

/-- The code point with a number; numbers from the limit on start again at zero. -/
def ofNat (n : Nat) : CodePoint := ⟨n % 0x110000, Nat.mod_lt _ (by decide)⟩

/-- The code point is the given character. -/
def is (p : CodePoint) (c : Char) : Bool := p.val == c.toNat

/-- The code point is one of the characters of a list. -/
def isOneOf (p : CodePoint) (cs : List Char) : Bool := cs.any p.is

/-- Surrogates stand for no character and cannot be encoded. -/
def isSurrogate (p : CodePoint) : Bool := 0xD800 ≤ p.val && p.val < 0xE000

/-- The value of an ASCII decimal digit. -/
def digit? (p : CodePoint) : Option Nat :=
  if 0x30 ≤ p.val ∧ p.val ≤ 0x39 then some (p.val - 0x30) else none

/-- An ASCII decimal digit. -/
def isDigit (p : CodePoint) : Bool := p.digit?.isSome

/-- The value of an ASCII hexadecimal digit of either case. -/
def hexDigit? (p : CodePoint) : Option Nat :=
  if 0x30 ≤ p.val ∧ p.val ≤ 0x39 then some (p.val - 0x30)
  else if 0x41 ≤ p.val ∧ p.val ≤ 0x46 then some (p.val - 0x37)
  else if 0x61 ≤ p.val ∧ p.val ≤ 0x66 then some (p.val - 0x57)
  else none

/-- ASCII capitals become small letters, every other code point stays. -/
def toLower (p : CodePoint) : CodePoint :=
  if h : 0x41 ≤ p.val ∧ p.val ≤ 0x5A then ⟨p.val + 0x20, by omega⟩ else p

end CodePoint

namespace Text

/-- The code points of a string. -/
def of (s : String) : Text := s.toList.map CodePoint.ofChar

/-- Code point order: the first difference decides, and a beginning comes before the whole. -/
def le : Text → Text → Bool
  | [], _ => true
  | _ :: _, [] => false
  | a :: as, b :: bs => a.val < b.val || (a.val == b.val && le as bs)

/-- The text begins with another one. -/
def startsWith : Text → Text → Bool
  | _, [] => true
  | [], _ :: _ => false
  | a :: as, b :: bs => a == b && startsWith as bs

/-- A natural number in decimal digits. -/
def natural (n : Nat) : Text := (Nat.toDigits 10 n).map CodePoint.ofChar

/-- A natural number with zeros in front, as many as make up `width` digits. -/
def paddedNatural (width n : Nat) : Text :=
  let digits := natural n
  List.replicate (width - digits.length) (CodePoint.ofChar '0') ++ digits

/-- An integer in decimal digits, with a minus sign in front where it is negative. -/
def integer : Int → Text
  | .ofNat n => natural n
  | .negSucc n => CodePoint.ofChar '-' :: natural (n + 1)

/-- Exactly `width` hexadecimal digits, the least significant ones of `n`. -/
def hex (digits : List Char) : Nat → Nat → Text
  | 0, _ => []
  | width + 1, n => hex digits width (n / 16) ++ [CodePoint.ofChar (digits.getD (n % 16) '0')]

/-- Hexadecimal digits in small letters. -/
def lowerHex : Nat → Nat → Text := hex "0123456789abcdef".toList

/-- Hexadecimal digits in capitals. -/
def upperHex : Nat → Nat → Text := hex "0123456789ABCDEF".toList

/-- The text followed by as many blanks as it takes to fill `width` code points. -/
def padRight (width : Nat) (t : Text) : Text :=
  t ++ List.replicate (width - t.length) (CodePoint.ofChar ' ')

/-- The pieces between the occurrences of a separator: one more than there are of those. -/
def splitOn (separator : CodePoint) : Text → List Text
  | [] => [[]]
  | c :: rest =>
    if c == separator then [] :: splitOn separator rest
    else match splitOn separator rest with
      | [] => [[c]]
      | piece :: pieces => (c :: piece) :: pieces

/-- Pieces with a separator between each two. -/
def joinWith (separator : Text) : List Text → Text
  | [] => []
  | [t] => t
  | t :: rest => t ++ separator ++ joinWith separator rest

end Text

end GestureStore
