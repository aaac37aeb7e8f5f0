/-
The fields of a store, one by one.

Integers, counts, texts and blocks of points: for each of them the reader takes the
form that the writer writes.  A count is read through its sign, so a written size is
taken for what it is only while it stays below half the range; that is where the
bounds on the sizes of stored things come from.
-/
import GestureStore.Proofs.Wire.Form

namespace GestureStore

/-! ### Integers -/

namespace Writer

/-- An integer is written as the bytes that denote it. -/
theorem integer_eq_ok_iff {k : Nat} {i : Int} {f : Bytes} :
    integer k i = .ok f ↔ f.length = k ∧ Bytes.toInt f = i := by
  rw [← Bytes.ofInt_eq_iff, integer]
  by_cases hfits : Bytes.fits k i = true
  · simp [hfits]
  · simp [hfits]

end Writer

namespace Reader

theorem takes_exactly (size : Nat) (field : Text) :
    (exactly size field).Takes fun a f => f = a ∧ a.length = size := by
  intro b a rest
  obtain ⟨hbytes, hrest⟩ := pull_eq size b
  simp only [exactly, hbytes, hrest]
  refine ⟨?_, ?_⟩
  · intro h
    split at h
    · rename_i hlen
      obtain ⟨ha, hr⟩ := Prod.mk.inj h
      obtain rfl := Except.ok.inj ha
      exact ⟨_, ⟨rfl, hlen⟩, by rw [← hr, List.take_append_drop]⟩
    · simp at h
  · intro h
    obtain ⟨f, ⟨rfl, hlen⟩, rfl⟩ := h
    rw [List.take_left' hlen, List.drop_left' hlen, if_pos hlen]

theorem takes_integer (k : Nat) (field : Text) :
    (integer k field).Takes fun i f => Writer.integer k i = .ok f := by
  refine ((takes_exactly k field).map Bytes.toInt).congr ?_
  intro i f
  rw [Writer.integer_eq_ok_iff]
  refine ⟨?_, ?_⟩
  · intro h
    obtain ⟨a, ⟨rfl, hlen⟩, rfl⟩ := h
    exact ⟨hlen, rfl⟩
  · intro h
    obtain ⟨hlen, rfl⟩ := h
    exact ⟨f, ⟨rfl, hlen⟩, rfl⟩

theorem takes_short (field : Text) :
    (short field).Takes fun i f => Writer.short i = .ok f := takes_integer 2 field

theorem takes_long (field : Text) :
    (long field).Takes fun i f => Writer.long i = .ok f := takes_integer 8 field

theorem takes_count (field : Text) :
    (count field).Takes fun n f => Writer.int n = .ok f := by
  have hsigned : ∀ i : Int, Takes
      (if i < 0 then (fail (.decode (.negativeCount field i)) : Reader Nat)
        else Pure.pure i.toNat)
      fun n g => 0 ≤ i ∧ n = i.toNat ∧ g = [] := by
    intro i
    by_cases hneg : i < 0
    · rw [if_pos hneg]
      refine (takes_fail _).congr fun n g => ?_
      exact ⟨False.elim, fun h => absurd h.1 (by omega)⟩
    · rw [if_neg hneg]
      refine (takes_pure _).congr fun n g => ?_
      exact ⟨fun h => ⟨by omega, h.1, h.2⟩, fun h => h.2⟩
  refine ((takes_integer 4 field).bind hsigned).congr ?_
  intro n f
  refine ⟨?_, ?_⟩
  · intro h
    obtain ⟨i, g, _, hg, ⟨hpos, rfl, rfl⟩, rfl⟩ := h
    rw [List.append_nil, Writer.int, Int.toNat_of_nonneg hpos]
    exact hg
  · intro h
    exact ⟨n, f, [], h, ⟨Int.natCast_nonneg n, (Int.toNat_natCast n).symm, rfl⟩, by simp⟩

/-! ### Texts -/

theorem takes_utf (field : Text) :
    (utf field).Takes fun t f => Writer.utf t = .ok f := by
  have hdecoded : ∀ bytes : Bytes, Takes
      (ofExcept ((Utf8.decode bytes).mapError fun e => .decode (.badText field e)))
      fun t g => Utf8.encode t = .ok bytes ∧ g = [] := by
    intro bytes
    refine (takes_ofExcept _).congr fun t g => ?_
    rw [← Utf8.decode_eq_ok_iff]
    cases Utf8.decode bytes with
    | ok u => simp [Except.mapError]
    | error e => simp [Except.mapError]
  refine ((takes_exactly 2 _).bind fun length =>
    (takes_exactly (Bytes.toNat length) _).bind hdecoded).congr ?_
  intro t f
  rw [Writer.utf]
  refine ⟨?_, ?_⟩
  · intro h
    obtain ⟨length, g, _, ⟨rfl, hlen⟩, ⟨bytes, h, _, ⟨rfl, hsize⟩, ⟨hencode, rfl⟩, rfl⟩, rfl⟩ := h
    have hlt := Bytes.toNat_lt g
    rw [hlen] at hlt
    have hform : Bytes.ofNat 2 h.length = g := by
      rw [hsize]
      exact (Bytes.ofNat_eq_iff hlt).mpr ⟨hlen, rfl⟩
    simp only [hencode]
    rw [if_neg (by simp only [maxTextBytes]; omega), hform, List.append_nil]
  · intro h
    cases hencode : Utf8.encode t with
    | error e => simp [hencode] at h
    | ok bytes =>
        simp only [hencode] at h
        split at h
        · simp at h
        · rename_i hsize
          obtain ⟨hlen, hval⟩ := (Bytes.ofNat_eq_iff (k := 2) (n := bytes.length)
            (by simp only [maxTextBytes] at hsize; omega)).mp rfl
          exact ⟨_, _, _, ⟨rfl, hlen⟩, ⟨_, _, _, ⟨rfl, hval.symm⟩, ⟨rfl, rfl⟩, rfl⟩,
            by rw [List.append_nil]; exact (Except.ok.inj h).symm⟩

/-! ### Points -/

theorem single_eq_iff {s : Single} {f : Bytes} :
    Writer.single s = f ↔ f.length = 4 ∧ singleOfBytes f = s := by
  rw [Writer.single, Bytes.ofNat_eq_iff s.bits.toNat_lt, singleOfBytes]
  refine and_congr_right fun hlen => ?_
  have hlt := Bytes.toNat_lt f
  rw [hlen] at hlt
  cases s with
  | mk bits =>
      rw [Single.mk.injEq, ← UInt32.toNat_inj, UInt32.toNat_ofNat_of_lt' hlt]

theorem timestamp_eq_iff {t : Int64} {f : Bytes} :
    Bytes.ofInt 8 t.toInt = f ↔ f.length = 8 ∧ Int64.ofInt (Bytes.toInt f) = t := by
  have hfits : Bytes.fits 8 t.toInt = true := by
    rw [Bytes.fits_iff]
    have hlow := t.le_toInt
    have hhigh := t.toInt_lt
    refine ⟨?_, ?_⟩ <;> omega
  refine ⟨?_, ?_⟩
  · intro h
    obtain rfl := h
    obtain ⟨hlen, hval⟩ := Bytes.ofInt_eq_iff.mp ⟨hfits, rfl⟩
    exact ⟨hlen, by rw [hval, Int64.ofInt_toInt]⟩
  · intro h
    obtain ⟨hlen, rfl⟩ := h
    obtain ⟨hback, hform⟩ := (Bytes.ofInt_eq_iff (b := f)).mpr ⟨hlen, rfl⟩
    obtain ⟨hlow, hhigh⟩ := Bytes.fits_iff.mp hback
    rw [Int64.toInt_ofInt_of_le (by omega) (by omega)]
    exact hform

/-- **Sixteen bytes are those of a point exactly if they denote it, bit by bit.** -/
theorem point_eq_iff {p : Point} {f : Bytes} :
    Writer.point p = f ↔ f.length = pointSize ∧ pointOfBytes f = p := by
  refine ⟨?_, ?_⟩
  · intro h
    obtain rfl := h
    obtain ⟨hxlen, hx⟩ := single_eq_iff.mp (rfl : Writer.single p.x = _)
    obtain ⟨hylen, hy⟩ := single_eq_iff.mp (rfl : Writer.single p.y = _)
    obtain ⟨htlen, ht⟩ := timestamp_eq_iff.mp (rfl : Bytes.ofInt 8 p.t.toInt = _)
    refine ⟨by simp only [Writer.point, List.length_append, hxlen, hylen, htlen, pointSize], ?_⟩
    rw [pointOfBytes, Writer.point, List.append_assoc, List.take_left' hxlen,
      List.drop_left' hxlen, List.take_left' hylen, ← List.append_assoc,
      List.drop_left' (by rw [List.length_append, hxlen, hylen]), hx, hy, ht]
  · intro h
    obtain ⟨hlen, rfl⟩ := h
    simp only [pointSize] at hlen
    have hx : Writer.single (singleOfBytes (f.take 4)) = f.take 4 :=
      single_eq_iff.mpr ⟨List.length_take_of_le (by omega), rfl⟩
    have hy : Writer.single (singleOfBytes ((f.drop 4).take 4)) = (f.drop 4).take 4 :=
      single_eq_iff.mpr ⟨List.length_take_of_le (by rw [List.length_drop]; omega), rfl⟩
    have ht : Bytes.ofInt 8 (Int64.ofInt (Bytes.toInt (f.drop 8))).toInt = f.drop 8 :=
      timestamp_eq_iff.mpr ⟨by rw [List.length_drop]; omega, rfl⟩
    simp only [Writer.point, pointOfBytes]
    rw [hx, hy, ht, List.append_assoc]
    have hdrop : f.drop 8 = (f.drop 4).drop 4 := by rw [List.drop_drop]
    rw [hdrop, List.take_append_drop, List.take_append_drop]

theorem points_eq_iff {n : Nat} {ps : List Point} {f : Bytes} :
    ps.length = n ∧ Writer.points ps = f ↔ f.length = pointSize * n ∧ pointsOfBytes n f = ps := by
  induction n generalizing ps f with
  | zero =>
      simp only [Nat.mul_zero, pointsOfBytes, List.length_eq_zero_iff]
      refine ⟨?_, ?_⟩
      · intro h
        obtain ⟨rfl, rfl⟩ := h
        exact ⟨rfl, rfl⟩
      · intro h
        obtain ⟨rfl, rfl⟩ := h
        exact ⟨rfl, rfl⟩
  | succ n ih =>
      rw [pointsOfBytes]
      refine ⟨?_, ?_⟩
      · intro h
        obtain ⟨hlen, rfl⟩ := h
        cases ps with
        | nil => simp at hlen
        | cons p ps =>
            obtain ⟨hplen, hp⟩ := point_eq_iff.mp (rfl : Writer.point p = _)
            obtain ⟨hslen, hs⟩ := ih.mp ⟨by simpa using hlen, (rfl : Writer.points ps = _)⟩
            have hsplit : Writer.points (p :: ps) = Writer.point p ++ Writer.points ps := rfl
            rw [hsplit, List.take_left' hplen, List.drop_left' hplen, hp, hs, List.length_append,
              hplen, hslen]
            exact ⟨by rw [Nat.mul_succ, Nat.add_comm], rfl⟩
      · intro h
        obtain ⟨hlen, rfl⟩ := h
        have hfirst : pointSize ≤ f.length := by
          rw [hlen]
          exact Nat.le_mul_of_pos_right _ (Nat.succ_pos n)
        have hp := point_eq_iff.mpr ⟨List.length_take_of_le hfirst, rfl⟩
        obtain ⟨hn, hs⟩ := ih.mpr ⟨show (f.drop pointSize).length = pointSize * n by
          rw [List.length_drop, hlen, Nat.mul_succ, Nat.add_sub_cancel], rfl⟩
        refine ⟨by rw [List.length_cons, hn], ?_⟩
        rw [Writer.points, List.flatMap_cons, hp, ← Writer.points, hs, List.take_append_drop]

theorem takes_points (n : Nat) (field : Text) :
    (points n field).Takes fun ps f => ps.length = n ∧ Writer.points ps = f := by
  refine ((takes_exactly (pointSize * n) field).map (pointsOfBytes n)).congr ?_
  intro ps f
  rw [points_eq_iff]
  refine ⟨?_, ?_⟩
  · intro h
    obtain ⟨a, ⟨rfl, hlen⟩, rfl⟩ := h
    exact ⟨hlen, rfl⟩
  · intro h
    obtain ⟨hlen, rfl⟩ := h
    exact ⟨f, ⟨rfl, hlen⟩, rfl⟩

end Reader
end GestureStore
