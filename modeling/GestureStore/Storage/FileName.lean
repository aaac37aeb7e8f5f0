/-
Names of files.

A file system keeps names as bytes.  A name that is given as a text is its UTF-8 form,
where each of the surrogates from U+DC80 to U+DCFF stands for one byte that is part of
no character.  Read back, such bytes become these surrogates again, so every name on
the disk has a text.  Two texts are the same name where their bytes are the same.
-/
import GestureStore.Fault

namespace GestureStore
namespace FileName

/-- The surrogate that stands for the byte 0x80; smaller bytes are always characters. -/
def rawStart : Nat := 0xDC80

/-- A surrogate that stands for a single byte. -/
def isRaw (p : CodePoint) : Bool := rawStart ≤ p.val && p.val < rawStart + 0x80

/-- The bytes of one code point in a name. -/
def encodeOne (p : CodePoint) : Bytes :=
  if isRaw p then [UInt8.ofNat (p.val - rawStart + 0x80)] else Utf8.encodeOne p

/-- The bytes of a name or path. -/
def encode (t : Text) : Bytes := t.flatMap encodeOne

/-- The surrogate that stands for a byte. -/
def raw (b : UInt8) : CodePoint := CodePoint.ofNat (rawStart + b.toNat - 0x80)

/-- The text of bytes from a place on, where at most `fuel` stretches are no characters. -/
def decodeFrom (fuel : Nat) (b : Bytes) : Text :=
  match fuel with
  | 0 => []
  | fuel + 1 =>
    match Utf8.decode b with
    | .ok t => t
    | .error e =>
      decodeFrom fuel (b.take e.position) ++ e.bytes.map raw
        ++ decodeFrom fuel (b.drop (e.position + e.bytes.length))

/-- The text of a name. -/
def decode (b : Bytes) : Text := decodeFrom (b.length + 1) b

/-- A name or path must have a form in bytes, and no zero among them. -/
def check (t : Text) : Except Fault Unit :=
  match Utf8.firstSurrogates (t.map fun p => if isRaw p then CodePoint.ofChar ' ' else p) with
  | some e => .error (.notEncodable e)
  | none => if t.any fun p => p.val == 0 then .error .badValue else .ok ()

end FileName
end GestureStore
