/-
A gesture that was cut off: the field that is missing is named.

Every field of a gesture is asked for under its name, so it is enough to know which of
them a cut leaves incomplete.  The identifier and the number of strokes have fixed places.
Behind them each stroke begins where those before it end (`Gesture.offset`); a cut goes
through one of them, as their places follow one another without a gap.  All strokes
before that one are complete and get read, and of that one either the number of its points
is cut or the points are.

A cut between two fields belongs to the later one.  So there is nothing left behind it,
and the reader has used up everything when it fails.
-/
import GestureStore.Proofs.Wire.Exactness

namespace GestureStore

open Writer Reader

/-! ### Cut fields -/

/-- When some of a form is all there is and the reader fails on it, it has used up all of it. -/
theorem Reader.Refuses.endsAfter_take {r : Reader α} {why : Fault → Bytes → Bytes → Prop}
    (hr : r.Refuses why) {e : Fault} {f : Bytes} {k : Nat} (hk : k ≤ f.length)
    (h : why e (f.take k) []) : r.EndsAfter (f.take k) (.error e) k := by
  have hlen : (f.take k).length = k := List.length_take_of_le hk
  refine hr.endsAfter_iff.mpr ⟨Nat.le_of_eq hlen.symm, ?_⟩
  rw [List.take_of_length_le (Nat.le_of_eq hlen), List.drop_eq_nil_of_le (Nat.le_of_eq hlen)]
  exact h

theorem Stroke.length_of_writes {s : Stroke} {f : Bytes} (h : Writes s.parts f) :
    f.length = 4 + 16 * s.size := by
  obtain ⟨c, hc, rfl⟩ := writes_parts_split.mp h
  have hpoints := (points_eq_iff.mp ⟨rfl, (rfl : Writer.points s.points = _)⟩).1
  rw [List.length_append, (integer_eq_ok_iff.mp hc).1, hpoints]
  rfl

theorem Stroke.length_of_joined {strokes : List Stroke} {f : Bytes}
    (h : Joined (fun s : Stroke => Writes s.parts) strokes f) :
    f.length = (strokes.map fun s => 4 + 16 * s.size).sum :=
  h.length_eq fun _ _ hs => length_of_writes hs

/-- **Of a stroke that is cut off, the number of its points is missing or the points are.** -/
theorem Stroke.refused_of_cut {s : Stroke} {cut lost : Bytes} (h : Writes s.parts (cut ++ lost))
    (hlost : lost ≠ []) :
    Stroke.Refused (.decode (.endOfData
      (if cut.length < 4 then Text.of "point count" else Text.of "stroke points"))) cut [] := by
  have hsize := length_of_writes h
  have hpositive := List.length_pos_iff.mpr hlost
  rw [List.length_append] at hsize
  obtain ⟨c, hc, hsplit⟩ := writes_parts_split.mp h
  have hcount := (integer_eq_ok_iff.mp hc).1
  by_cases hshort : cut.length < 4
  · rw [if_pos hshort]
    exact .cutCount hshort
  · rw [if_neg hshort]
    have hcut : cut = c ++ cut.drop 4 := by
      have hfront := congrArg (List.take 4) hsplit
      rw [List.take_append_of_le_length (Nat.le_of_not_lt hshort), List.take_left' hcount] at hfront
      rw [← hfront, List.take_append_drop]
    rw [hcut]
    refine .cutPoints hc ?_
    rw [List.length_drop, pointSize]
    omega

namespace Gesture

/-! ### Where strokes begin -/

/-- Where in the bytes of a gesture a stroke begins, or where they end. -/
def offset (g : Gesture) (j : Nat) : Nat :=
  12 + ((g.strokes.take j).map fun s => 4 + 16 * s.size).sum

theorem offset_succ (g : Gesture) {j : Nat} {s : Stroke} (h : g.strokes[j]? = some s) :
    g.offset (j + 1) = g.offset j + 4 + 16 * s.size := by
  unfold offset
  rw [List.take_add_one, h]
  simp only [Option.toList_some, List.map_append, List.sum_append, List.map_cons, List.map_nil,
    List.sum_cons, List.sum_nil]
  omega

theorem offset_mono (g : Gesture) : Monotone g.offset := by
  refine monotone_nat_of_le_succ fun j => ?_
  cases h : g.strokes[j]? with
  | none =>
      unfold offset
      rw [List.take_add_one, h, Option.toList_none, List.append_nil]
  | some s =>
      rw [g.offset_succ h]
      omega

/-- The places of the strokes follow one another, so each place between them is in one. -/
theorem exists_offset (g : Gesture) {k : Nat} (hlow : 12 ≤ k) :
    ∀ m, k < g.offset m → ∃ j < m, g.offset j ≤ k ∧ k < g.offset (j + 1) := by
  intro m
  induction m with
  | zero =>
      intro h
      have hzero : g.offset 0 = 12 := rfl
      omega
  | succ m ih =>
      intro h
      by_cases hm : k < g.offset m
      · obtain ⟨j, hj, hin⟩ := ih hm
        exact ⟨j, Nat.lt_succ_of_lt hj, hin⟩
      · exact ⟨m, Nat.lt_succ_self m, Nat.le_of_not_lt hm, h⟩

/-- The cut is in this stroke, or right in front of it. -/
def CutIn (g : Gesture) (k j : Nat) (s : Stroke) : Prop :=
  g.strokes[j]? = some s ∧ g.offset j ≤ k ∧ k < g.offset j + 4 + 16 * s.size

theorem CutIn.unique {g : Gesture} {k i j : Nat} {s t : Stroke} (hi : g.CutIn k i s)
    (hj : g.CutIn k j t) : i = j := by
  obtain ⟨hs, hilow, hihigh⟩ := hi
  obtain ⟨ht, hjlow, hjhigh⟩ := hj
  rw [← g.offset_succ hs] at hihigh
  rw [← g.offset_succ ht] at hjhigh
  rcases Nat.lt_trichotomy i j with hlt | heq | hgt
  · have hbehind : g.offset (i + 1) ≤ g.offset j := g.offset_mono hlt
    omega
  · exact heq
  · have hbehind : g.offset (j + 1) ≤ g.offset i := g.offset_mono hgt
    omega

theorem exists_cutIn {g : Gesture} {k : Nat} (hlow : 12 ≤ k)
    (hhigh : k < g.offset g.strokes.length) : ∃ j s, g.CutIn k j s := by
  obtain ⟨j, hj, hlow, hhigh⟩ := g.exists_offset hlow _ hhigh
  have hs : g.strokes[j]? = some g.strokes[j] := List.getElem?_eq_getElem hj
  rw [g.offset_succ hs] at hhigh
  exact ⟨j, _, hs, hlow, hhigh⟩

/-! ### The fields of a gesture -/

theorem length_of_writes {g : Gesture} {f : Bytes} (h : Writes g.parts f) :
    f.length = g.offset g.strokes.length := by
  obtain ⟨id, n, body, hid, hn, hbody, rfl⟩ := writes_parts_split.mp h
  have hlen := Stroke.length_of_joined hbody
  rw [List.length_append, List.length_append, (integer_eq_ok_iff.mp hid).1,
    (integer_eq_ok_iff.mp hn).1, hlen, offset, List.take_length]
  omega

theorem refused_take_id (f : Bytes) {k : Nat} (hk : k < 8) :
    Refused (.decode (.endOfData (Text.of "gesture id"))) (f.take k) [] := by
  refine .cutId ?_
  rw [List.length_take]
  omega

theorem refused_take_count {g : Gesture} {f : Bytes} (h : Writes g.parts f) {k : Nat}
    (hlow : 8 ≤ k) (hhigh : k < 12) :
    Refused (.decode (.endOfData (Text.of "stroke count"))) (f.take k) [] := by
  obtain ⟨id, n, body, hid, -, -, rfl⟩ := writes_parts_split.mp h
  have hlen := (integer_eq_ok_iff.mp hid).1
  obtain ⟨d, rfl⟩ := Nat.exists_eq_add_of_le hlow
  rw [← hlen, List.take_length_add_append]
  refine .cutCount hid ?_
  rw [List.length_take]
  omega

/-- **All strokes before the one that is cut are read, and then that one is refused.** -/
theorem refused_take_stroke {g : Gesture} {f : Bytes} (h : Writes g.parts f) {k j : Nat}
    {s : Stroke} (hin : g.CutIn k j s) :
    Refused (.decode (.endOfData
      (if k < g.offset j + 4 then Text.of "point count" else Text.of "stroke points")))
      (f.take k) [] := by
  obtain ⟨id, n, body, hid, hn, hbody, rfl⟩ := writes_parts_split.mp h
  obtain ⟨hs, hlow, hhigh⟩ := hin
  obtain ⟨hj, rfl⟩ := List.getElem?_eq_some_iff.mp hs
  rw [← List.take_append_drop j g.strokes, joined_append, List.drop_eq_getElem_cons hj] at hbody
  obtain ⟨before, _, hbefore, ⟨stroke, after, hstroke, -, rfl⟩, rfl⟩ := hbody
  have hidlen := (integer_eq_ok_iff.mp hid).1
  have hnlen := (integer_eq_ok_iff.mp hn).1
  have hstrokelen := Stroke.length_of_writes hstroke
  have hoffset : g.offset j = 8 + (4 + before.length) := by
    rw [Stroke.length_of_joined hbefore, offset]
    omega
  obtain ⟨d, rfl⟩ := Nat.exists_eq_add_of_le hlow
  have hd : d < stroke.length := by omega
  have hcut : (id ++ (n ++ (before ++ (stroke ++ after)))).take (g.offset j + d)
      = id ++ (n ++ (before ++ stroke.take d)) := by
    rw [hoffset, Nat.add_assoc, Nat.add_assoc, ← hidlen, List.take_length_add_append, ← hnlen,
      List.take_length_add_append, List.take_length_add_append,
      List.take_append_of_le_length (Nat.le_of_lt hd)]
  have hnext : Stroke.Refused (.decode (.endOfData
      (if d < 4 then Text.of "point count" else Text.of "stroke points"))) (stroke.take d) [] := by
    have hlen : (stroke.take d).length = d := List.length_take_of_le (Nat.le_of_lt hd)
    rw [← List.take_append_drop d stroke] at hstroke
    have hrefused := Stroke.refused_of_cut hstroke (by simpa using hd)
    rw [hlen] at hrefused
    exact hrefused
  rw [hcut]
  simp only [Nat.add_lt_add_iff_left]
  exact .stroke hid hn (by rw [List.length_take]; omega) hbefore hnext

/-! ### Cut gestures -/

/--
**A short read names the field that is missing.**

Take the bytes that a gesture is written as and only so many of them that some are
missing.  Reading uses up all of them and fails.  It names the identifier or the number of
strokes if the cut is in one of these or right in front of it.  Otherwise there is just
one stroke that the cut is in or right in front of, and it names the number of its points
if the cut comes before its end, and its points if not.
-/
theorem short_read_names_the_missing_field {g : Gesture} {f : Bytes} (hf : g.write = ⟨f, none⟩)
    {k : Nat} (hk : k < f.length) :
    (k < 8 →
      read.EndsAfter (f.take k) (.error (.decode (.endOfData (Text.of "gesture id")))) k) ∧
    (8 ≤ k → k < 12 →
      read.EndsAfter (f.take k) (.error (.decode (.endOfData (Text.of "stroke count")))) k) ∧
    (12 ≤ k → ∃! j, ∃ s, g.CutIn k j s) ∧
    ∀ j s, g.CutIn k j s → read.EndsAfter (f.take k) (.error (.decode (.endOfData
      (if k < g.offset j + 4 then Text.of "point count" else Text.of "stroke points")))) k := by
  have hparts : Writes g.parts f := hf
  have hle := Nat.le_of_lt hk
  refine ⟨?_, ?_, ?_, ?_⟩
  · intro hhigh
    exact refuses_read.endsAfter_take hle (refused_take_id f hhigh)
  · intro hlow hhigh
    exact refuses_read.endsAfter_take hle (refused_take_count hparts hlow hhigh)
  · intro hlow
    rw [length_of_writes hparts] at hk
    obtain ⟨j, s, hin⟩ := exists_cutIn hlow hk
    refine ⟨j, ⟨s, hin⟩, ?_⟩
    intro i hi
    obtain ⟨t, hi⟩ := hi
    exact hi.unique hin
  · intro j s hin
    exact refuses_read.endsAfter_take hle (refused_take_stroke hparts hin)

/-- The count of the second stroke is cut right in front, its points after the first of them. -/
theorem cut_tick_names_the_missing_field :
    let f := (tick 7).write.bytes
    read.EndsAfter (f.take 32) (.error (.decode (.endOfData (Text.of "point count")))) 32 ∧
      read.EndsAfter (f.take 52) (.error (.decode (.endOfData (Text.of "stroke points")))) 52 := by
  intro f
  have hf : (tick 7).write = ⟨f, none⟩ := by decide
  have hcut : ∀ k, 32 ≤ k → k < 68 →
      read.EndsAfter (f.take k) (.error (.decode (.endOfData
        (if k < 36 then Text.of "point count" else Text.of "stroke points")))) k := by
    intro k hlow hhigh
    exact (short_read_names_the_missing_field hf hhigh).2.2.2 1 _ ⟨rfl, hlow, hhigh⟩
  exact ⟨hcut 32 (by decide) (by decide), hcut 52 (by decide) (by decide)⟩

end Gesture
end GestureStore
