/-
Reading in chunks.

What comes of asking a stream for one chunk after the other is what comes of asking once
(`pull_eq`).  Here it is counted how often the stream is asked, and for how much.  Every
look but the last brings a full chunk, unless the stream ends; then one more look finds
that there is nothing left.  So the number of looks goes by what there is and not by what
is claimed.
-/
import GestureStore.Proofs.Wire.Refusal
import Mathlib.Algebra.Order.Floor.Div

namespace GestureStore

/-! ### Looks at a stream -/

/-- At each look something is asked for, and no more than a chunk. -/
theorem mem_asked (size : Nat) (stream : Bytes) :
    ∀ n ∈ (pull size stream).asked, 0 < n ∧ n ≤ chunkSize := by
  fun_induction pull size stream with
  | case1 => simp
  | case2 size stream hsize ask _ _ =>
      intro n hn
      obtain rfl := List.mem_singleton.mp hn
      exact ⟨Nat.lt_min.mpr ⟨Nat.pos_of_ne_zero hsize, by decide⟩, Nat.min_le_right _ _⟩
  | case3 size stream hsize ask _ _ later ih =>
      intro n hn
      rcases List.mem_cons.mp hn with rfl | hn
      · exact ⟨Nat.lt_min.mpr ⟨Nat.pos_of_ne_zero hsize, by decide⟩, Nat.min_le_right _ _⟩
      · exact ih n hn

/-- **There is a look for every chunk that comes, the last of them perhaps not full, and one
more if the stream ends too early.** -/
theorem length_asked (size : Nat) (stream : Bytes) :
    (pull size stream).asked.length
      = min size stream.length ⌈/⌉ chunkSize + if stream.length < size then 1 else 0 := by
  simp only [Nat.ceilDiv_eq_add_pred_div]
  fun_induction pull size stream with
  | case1 stream => simp [chunkSize]
  | case2 size stream hsize ask chunk hchunk =>
      have hstream : stream.length = 0 := by
        have hlen := congrArg List.length hchunk
        simp only [chunk, ask, List.length_take, List.length_nil] at hlen
        simp only [chunkSize] at hlen
        omega
      rw [hstream, Nat.min_zero, if_pos (Nat.pos_of_ne_zero hsize)]
      rfl
  | case3 size stream hsize ask chunk hchunk later ih =>
      have hstream : stream.length ≠ 0 := by
        intro hnil
        obtain rfl := List.length_eq_zero_iff.mp hnil
        exact hchunk (List.take_nil ..)
      have hcame : chunk.length = min (min size chunkSize) stream.length := List.length_take ..
      have hleft : (stream.drop ask).length = stream.length - min size chunkSize :=
        List.length_drop ..
      simp only [later] at ih ⊢
      rw [List.length_cons, ih, hleft, hcame]
      clear ih hleft hcame
      -- A full chunk is one chunk less of both, a part of one is all of one of them.
      by_cases hshort : stream.length < size
      · rw [if_pos hshort, if_pos (by omega)]
        simp only [chunkSize]
        omega
      · rw [if_neg hshort, if_neg (by omega)]
        simp only [chunkSize]
        omega

namespace Reader

/--
**Reading in chunks comes to the same as reading at once, and never takes more than there is.**

Where a stream has as many bytes as are wanted, they are what is read, and the reader has
used up these and no more.  Otherwise reading fails with the name of the field, and
everything is used up.  The stream is asked for no more than 64 KiB at a time, and, however
much is wanted, at most once more than there are such chunks in what comes of it.
-/
theorem chunked_reading_is_reading_at_once (size : Nat) (field : Text) (stream : Bytes) :
    (size ≤ stream.length →
      (exactly size field).EndsAfter stream (.ok (stream.take size)) size) ∧
    (stream.length < size →
      (exactly size field).EndsAfter stream (.error (.decode (.endOfData field))) stream.length) ∧
    (∀ n ∈ (pull size stream).asked, 0 < n ∧ n ≤ 64 * 1024) ∧
    (pull size stream).asked.length ≤ min size stream.length ⌈/⌉ (64 * 1024) + 1 := by
  obtain ⟨hbytes, hrest⟩ := pull_eq size stream
  have hread : exactly size field stream
      = if (stream.take size).length = size then (.ok (stream.take size), stream.drop size)
        else (.error (.decode (.endOfData field)), stream.drop size) := by
    rw [← hbytes, ← hrest]
    rfl
  refine ⟨fun hle => ⟨hle, ?_⟩, fun hlt => ⟨Nat.le_refl _, ?_⟩, mem_asked size stream, ?_⟩
  · rw [hread, if_pos (List.length_take_of_le hle)]
  · have hshort : ¬ (stream.take size).length = size := by
      rw [List.length_take]
      omega
    rw [hread, if_neg hshort, List.drop_eq_nil_of_le hlt.le, List.drop_length]
  · rw [length_asked]
    exact Nat.add_le_add_left (by split <;> decide) _

/-- A claim of as many points as can be counted is refused after two looks at a single chunk. -/
theorem huge_claim_takes_two_looks :
    let stream : Bytes := List.replicate (64 * 1024) 7
    let field := Text.of "stroke points"
    (exactly (64 * 1024) field).EndsAfter stream (.ok stream) (64 * 1024) ∧
      (exactly (16 * (2 ^ 31 - 1)) field).EndsAfter stream
        (.error (.decode (.endOfData field))) (64 * 1024) ∧
      (pull (16 * (2 ^ 31 - 1)) stream).asked.length ≤ 2 := by
  intro stream field
  have hlen : stream.length = 64 * 1024 := List.length_replicate ..
  obtain ⟨hread, -, -, -⟩ := chunked_reading_is_reading_at_once (64 * 1024) field stream
  obtain ⟨-, hrefused, -, hlooks⟩ :=
    chunked_reading_is_reading_at_once (16 * (2 ^ 31 - 1)) field stream
  rw [hlen] at hread hrefused hlooks
  rw [List.take_of_length_le hlen.le] at hread
  exact ⟨hread le_rfl, hrefused (by decide), hlooks.trans (by decide)⟩

end Reader
end GestureStore
