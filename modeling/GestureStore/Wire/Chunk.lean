/-
Taking a claimed number of bytes from a stream.

A count in a damaged file can claim far more than the file holds.  Nothing is set
aside for what is claimed: the stream is asked for one chunk after the other, until
the claim is met or the stream has no more.  Each look is recorded, so that what is
asked for, and how often, can be told from the result.
-/
import GestureStore.Bytes

namespace GestureStore

/-- The most that is asked for at once. -/
def chunkSize : Nat := 64 * 1024

/-- What came of asking a stream for bytes. -/
structure Pull where
  /-- The bytes that came. -/
  bytes : Bytes
  /-- What is left of the stream. -/
  rest : Bytes
  /-- How much was asked for at each look. -/
  asked : List Nat
  deriving DecidableEq

/-- Ask a stream for `size` bytes, a chunk at a time. -/
def pull (size : Nat) (stream : Bytes) : Pull :=
  if size = 0 then ⟨[], stream, []⟩
  else
    let ask := min size chunkSize
    let chunk := stream.take ask
    if chunk = [] then ⟨[], stream, [ask]⟩
    else
      let later := pull (size - chunk.length) (stream.drop ask)
      ⟨chunk ++ later.bytes, later.rest, ask :: later.asked⟩
termination_by size
decreasing_by
  exact Nat.sub_lt (Nat.pos_of_ne_zero ‹_›) (List.length_pos_iff.mpr ‹_›)

end GestureStore
