/-
Writing values as bytes.

Each value is turned into bytes on its own, or refused; a refused value leaves no
byte behind.  What consists of several values is written value by value up to the
first that is refused.
-/
import GestureStore.Geometry.Stroke

namespace GestureStore

/-- What came of writing several values. -/
structure Written where
  /-- The bytes of the values before the first that was refused. -/
  bytes : Bytes
  /-- Why a value was refused, if one was. -/
  fault : Option Fault
  deriving DecidableEq

namespace Writer

/-- A signed integer in `k` bytes. -/
def integer (k : Nat) (i : Int) : Except Fault Bytes :=
  if Bytes.fits k i then .ok (Bytes.ofInt k i) else .error .unpackable

/-- A signed integer in 16 bits. -/
def short (i : Int) : Except Fault Bytes := integer 2 i

/-- A signed integer in 32 bits. -/
def int (i : Int) : Except Fault Bytes := integer 4 i

/-- A signed integer in 64 bits. -/
def long (i : Int) : Except Fault Bytes := integer 8 i

/-- The four bytes of a number in single precision. -/
def single (s : Single) : Bytes := Bytes.ofNat 4 s.bits.toNat

/-- A number rounded to single precision; a finite one must stay finite. -/
def float (x : Float) : Except Fault Bytes :=
  let s := Single.ofFloat x
  if x.isFinite && !s.isFinite then .error .outOfRange else .ok (single s)

/-- A text: the number of its bytes in 16 bits, then its UTF-8 form. -/
def utf (t : Text) : Except Fault Bytes :=
  match Utf8.encode t with
  | .error e => .error (.notEncodable e)
  | .ok bytes =>
    if maxTextBytes < bytes.length then .error (.textTooLong bytes.length)
    else .ok (Bytes.ofNat 2 bytes.length ++ bytes)

/-- The sixteen bytes of a point. -/
def point (p : Point) : Bytes := single p.x ++ single p.y ++ Bytes.ofInt 8 p.t.toInt

/-- A block of points. -/
def points (ps : List Point) : Bytes := ps.flatMap point

/-- Write values in turn, up to the first that is refused. -/
def all : List (Except Fault Bytes) → Written
  | [] => ⟨[], none⟩
  | .error e :: _ => ⟨[], some e⟩
  | .ok bytes :: rest =>
    let later := all rest
    ⟨bytes ++ later.bytes, later.fault⟩

end Writer
end GestureStore
