/-
UTF-8, strictly: the shortest form of every scalar value and nothing else.

Encoding fails at the first surrogate and reports the whole run of surrogates that
starts there.  Decoding fails at the first sequence that cannot be completed and
reports its longest beginning that could still have become a character.  The lead
byte alone settles how many bytes follow and which range the first of them must
lie in; with that, over-long forms, surrogates and numbers above 0x10FFFF never
get past their second byte.
-/
import GestureStore.Bytes

namespace GestureStore
namespace Utf8

/-! ### Encoding -/

/-- Where a text stops being encodable: `count` adjacent surrogates from `position` on. -/
structure EncodeError where
  /-- The first surrogate of the run. -/
  first : CodePoint
  /-- Its position in code points. -/
  position : Nat
  /-- The length of the run. -/
  count : Nat
  deriving DecidableEq, Repr

/-- The bytes of one scalar value, in the shortest form. -/
def encodeOne (p : CodePoint) : Bytes :=
  let n := p.val
  if n < 0x80 then [UInt8.ofNat n]
  else if n < 0x800 then [UInt8.ofNat (0xC0 + n / 64), UInt8.ofNat (0x80 + n % 64)]
  else if n < 0x10000 then
    [UInt8.ofNat (0xE0 + n / 4096), UInt8.ofNat (0x80 + n / 64 % 64), UInt8.ofNat (0x80 + n % 64)]
  else
    [UInt8.ofNat (0xF0 + n / 262144), UInt8.ofNat (0x80 + n / 4096 % 64),
      UInt8.ofNat (0x80 + n / 64 % 64), UInt8.ofNat (0x80 + n % 64)]

/-- The first run of surrogates in a text. -/
def firstSurrogates (t : Text) : Option EncodeError :=
  match t.dropWhile (fun p => !p.isSurrogate) with
  | [] => none
  | p :: rest =>
    some {
      first := p
      position := (t.takeWhile fun p => !p.isSurrogate).length
      count := 1 + (rest.takeWhile CodePoint.isSurrogate).length }

/-- The bytes of a text without surrogates. -/
def encode (t : Text) : Except EncodeError Bytes :=
  match firstSurrogates t with
  | some e => .error e
  | none => .ok (t.flatMap encodeOne)

/-! ### Decoding -/

/-- Why a sequence of bytes is no character. -/
inductive Reason where
  /-- The byte begins no character. -/
  | startByte
  /-- The next byte cannot follow here. -/
  | continuationByte
  /-- The bytes end inside a character. -/
  | endOfData
  deriving DecidableEq, Repr

/-- Where bytes stop being UTF-8. -/
structure DecodeError where
  /-- The longest beginning of the sequence that could still have become a character. -/
  bytes : Bytes
  /-- Its position in bytes. -/
  position : Nat
  /-- What is wrong with it. -/
  reason : Reason
  deriving DecidableEq, Repr

/-- What a lead byte promises. -/
structure Lead where
  /-- How many bytes follow. -/
  more : Nat
  /-- The least value of the next byte. -/
  low : Nat
  /-- The greatest value of the next byte. -/
  high : Nat
  /-- The bits of the character that the lead byte carries. -/
  bits : Nat

/-- The promise of a lead byte, if it is one. -/
def lead? (b : Nat) : Option Lead :=
  if b < 0x80 then some ⟨0, 0x80, 0xBF, b⟩
  else if b < 0xC2 then none
  else if b < 0xE0 then some ⟨1, 0x80, 0xBF, b - 0xC0⟩
  else if b = 0xE0 then some ⟨2, 0xA0, 0xBF, 0⟩
  else if b = 0xED then some ⟨2, 0x80, 0x9F, 0xD⟩
  else if b < 0xF0 then some ⟨2, 0x80, 0xBF, b - 0xE0⟩
  else if b = 0xF0 then some ⟨3, 0x90, 0xBF, 0⟩
  else if b < 0xF4 then some ⟨3, 0x80, 0xBF, b - 0xF0⟩
  else if b = 0xF4 then some ⟨3, 0x80, 0x8F, 4⟩
  else none

/-- A character of which some bytes have been seen. -/
structure Pending where
  /-- The bytes seen so far. -/
  seen : Bytes
  /-- What is still to come; `bits` holds the bits so far. -/
  due : Lead

/--
Decode from a position on, given the character begun and the text so far in reverse.

The ranges that the lead byte sets keep the bits below the limit of code points.
-/
def decodeFrom (position : Nat) (begun : Option Pending) (sofar : Text) :
    Bytes → Except DecodeError Text
  | [] =>
    match begun with
    | none => .ok sofar.reverse
    | some p => .error ⟨p.seen, position - p.seen.length, .endOfData⟩
  | b :: rest =>
    match begun with
    | none =>
      match lead? b.toNat with
      | none => .error ⟨[b], position, .startByte⟩
      | some l =>
        if l.more = 0 then decodeFrom (position + 1) none (CodePoint.ofNat l.bits :: sofar) rest
        else decodeFrom (position + 1) (some ⟨[b], l⟩) sofar rest
    | some p =>
      if p.due.low ≤ b.toNat ∧ b.toNat ≤ p.due.high then
        let bits := p.due.bits * 64 + b.toNat % 64
        if p.due.more ≤ 1 then decodeFrom (position + 1) none (CodePoint.ofNat bits :: sofar) rest
        else
          decodeFrom (position + 1)
            (some ⟨p.seen ++ [b], ⟨p.due.more - 1, 0x80, 0xBF, bits⟩⟩) sofar rest
      else .error ⟨p.seen, position - p.seen.length, .continuationByte⟩

/-- The text that bytes encode. -/
def decode (b : Bytes) : Except DecodeError Text := decodeFrom 0 none [] b

/-! ### Wording -/

/-- The reason in words. -/
def Reason.wording : Reason → Text
  | .startByte => Text.of "invalid start byte"
  | .continuationByte => Text.of "invalid continuation byte"
  | .endOfData => Text.of "unexpected end of data"

/-- The span of `count` items from `position` on, its last item included. -/
def span (position count : Nat) : Text :=
  Text.natural position ++ Text.of "-" ++ Text.natural (position + count - 1)

/-- The error in words: one surrogate is named, a run is located only. -/
def EncodeError.wording (e : EncodeError) : Text :=
  let place :=
    if e.count = 1 then
      Text.of "character '\\u" ++ Text.lowerHex 4 e.first.val ++ Text.of "' in position "
        ++ Text.natural e.position
    else Text.of "characters in position " ++ span e.position e.count
  Text.of "'utf-8' codec can't encode " ++ place ++ Text.of ": surrogates not allowed"

/-- The error in words: one byte is named, a longer sequence is located only. -/
def DecodeError.wording (e : DecodeError) : Text :=
  let place :=
    match e.bytes with
    | [b] => Text.of "byte 0x" ++ Text.lowerHex 2 b.toNat ++ Text.of " in position " ++ Text.natural e.position
    | bs => Text.of "bytes in position " ++ span e.position bs.length
  Text.of "'utf-8' codec can't decode " ++ place ++ Text.of ": " ++ e.reason.wording

end Utf8
end GestureStore
