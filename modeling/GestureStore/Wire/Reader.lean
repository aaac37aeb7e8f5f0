/-
Reading stored values from bytes.

A reader takes what it needs from the front of the bytes and hands back the rest.
It hands back the rest also when it fails: a value that is cut off uses up what
there is of it.  Every read names the field it is after, so that a short read can
say what is missing.
-/
import GestureStore.Geometry.Stroke
import GestureStore.Wire.Chunk

namespace GestureStore

/-- A computation that takes bytes from the front of a stream. -/
def Reader (α : Type) : Type := Bytes → Except Fault α × Bytes

namespace Reader

/-- Take nothing. -/
def pure (a : α) : Reader α := fun b => (.ok a, b)

/-- Take what one reader wants and then, unless it fails, what the next one does. -/
def bind (r : Reader α) (f : α → Reader β) : Reader β := fun b =>
  match r b with
  | (.ok a, rest) => f a rest
  | (.error e, rest) => (.error e, rest)

instance : Monad Reader where
  pure := pure
  bind := bind

/-- Fail without taking anything. -/
def fail (e : Fault) : Reader α := fun b => (.error e, b)

/-- The value of a computation, or its failure; nothing is taken for it. -/
def ofExcept (outcome : Except Fault α) : Reader α :=
  match outcome with
  | .ok a => pure a
  | .error e => fail e

/-- The next `size` bytes. -/
def exactly (size : Nat) (field : Text) : Reader Bytes := fun b =>
  let p := pull size b
  if p.bytes.length = size then (.ok p.bytes, p.rest)
  else (.error (.decode (.endOfData field)), p.rest)

/-- A signed integer of `k` bytes. -/
def integer (k : Nat) (field : Text) : Reader Int := do return Bytes.toInt (← exactly k field)

/-- A signed integer of 16 bits. -/
def short (field : Text) : Reader Int := integer 2 field

/-- A signed integer of 32 bits. -/
def int (field : Text) : Reader Int := integer 4 field

/-- A signed integer of 64 bits. -/
def long (field : Text) : Reader Int := integer 8 field

/-- A count: an integer of 32 bits that is not negative. -/
def count (field : Text) : Reader Nat := do
  let n ← int field
  if n < 0 then fail (.decode (.negativeCount field n)) else return n.toNat

/-- The bit pattern in four bytes. -/
def singleOfBytes (b : Bytes) : Single := ⟨UInt32.ofNat b.toNat⟩

/-- A number in single precision. -/
def float (field : Text) : Reader Single := do return singleOfBytes (← exactly 4 field)

/-- A text: the number of its bytes in 16 bits, then its UTF-8 form. -/
def utf (field : Text) : Reader Text := do
  let length ← exactly 2 (field ++ Text.of " length")
  let bytes ← exactly length.toNat field
  ofExcept ((Utf8.decode bytes).mapError fun e => .decode (.badText field e))

/-- The bytes of a point. -/
def pointSize : Nat := 16

/-- The point in sixteen bytes: two coordinates and a timestamp. -/
def pointOfBytes (b : Bytes) : Point where
  x := singleOfBytes (b.take 4)
  y := singleOfBytes ((b.drop 4).take 4)
  t := Int64.ofInt (Bytes.toInt (b.drop 8))

/-- The points in a block of bytes. -/
def pointsOfBytes : Nat → Bytes → List Point
  | 0, _ => []
  | n + 1, b => pointOfBytes (b.take pointSize) :: pointsOfBytes n (b.drop pointSize)

/-- A block of `n` points. -/
def points (n : Nat) (field : Text) : Reader (List Point) := do
  return pointsOfBytes n (← exactly (pointSize * n) field)

/-! ### Several of a kind -/

/-- What came of reading several items: all before the first that failed. -/
structure Run (α : Type) where
  /-- The items that were read. -/
  items : List α
  /-- Why there are no more of them, if some are missing. -/
  fault : Option Fault
  /-- What is left. -/
  rest : Bytes

/-- Read `n` items, or as many as there are. -/
def run (r : Reader α) : Nat → Bytes → Run α
  | 0, b => ⟨[], none, b⟩
  | n + 1, b =>
    match r b with
    | (.error e, rest) => ⟨[], some e, rest⟩
    | (.ok a, rest) =>
      let later := run r n rest
      ⟨a :: later.items, later.fault, later.rest⟩

/-- Exactly `n` items. -/
def times (r : Reader α) (n : Nat) : Reader (List α) := fun b =>
  let all := run r n b
  match all.fault with
  | some e => (.error e, all.rest)
  | none => (.ok all.items, all.rest)

end Reader
end GestureStore
