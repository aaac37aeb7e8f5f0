/-
Points spread evenly along a path.

The pieces of a path follow one another, and each begins where the length of those before
it has been walked.  So the last piece that begins no later than a distance also reaches
that distance, and no later piece is found for a smaller distance (`Path.Reaches`).  A piece that
is shorter than the least length is divided as if it were that long; the point then lies
before the distance it stands for, by less than the piece is long.

Nothing here depends on how many coordinates a point has, only on what points that agree
in their number have in common (`Space.Straight`).
-/
import GestureStore.Proofs.Feature.Instance
import GestureStore.Proofs.Feature.Plane

namespace GestureStore

/-! ### Spaces of points -/

/-- Ways between these points begin where they should, and only what does not move has no length. -/
structure Space.Straight [Space V ℝ] (S : Set V) : Prop where
  norm_nonneg (v : V) : 0 ≤ Space.norm v
  along_zero : ∀ {a b}, a ∈ S → b ∈ S → Space.along 0 a b = a
  eq_of_norm_sub : ∀ {a b}, a ∈ S → b ∈ S → Space.norm (Space.sub b a) = 0 → b = a

theorem Vec.norm_eq_zero_iff {v : Vec ℝ} : Space.norm v = 0 ↔ v = ⟨0, 0⟩ := by
  constructor
  · intro h
    have hsum := (Real.sqrt_eq_zero (add_nonneg (mul_self_nonneg _) (mul_self_nonneg _))).mp h
    obtain ⟨hx, hy⟩ := mul_self_add_mul_self_eq_zero.mp hsum
    cases v
    rw [mk.injEq]
    exact ⟨hx, hy⟩
  · rintro rfl
    rw [norm_eq, mul_zero, add_zero, Real.sqrt_zero]

theorem Vec.sub_eq_zero_iff {v w : Vec ℝ} : Space.sub v w = ⟨0, 0⟩ ↔ v = w := by
  cases v
  cases w
  rw [sub_eq, mk.injEq, mk.injEq, sub_eq_zero, sub_eq_zero]

theorem Vec.straight : Space.Straight (Set.univ : Set (Vec ℝ)) where
  norm_nonneg _ := Real.sqrt_nonneg _
  along_zero _ _ := by rw [along_eq, zero_mul, zero_mul, add_zero, add_zero]
  eq_of_norm_sub _ _ h := sub_eq_zero_iff.mp (norm_eq_zero_iff.mp h)

namespace Row

theorem add_scale_zero {a b : List ℝ} (h : a.length = b.length) :
    List.zipWith (· + ·) a ((List.zipWith (· - ·) b a).map (0 * ·)) = a := by
  induction a generalizing b with
  | nil => rfl
  | cons x a ih =>
      cases b with
      | nil => simp at h
      | cons y b =>
          rw [List.zipWith_cons_cons, List.map_cons, List.zipWith_cons_cons, zero_mul, add_zero,
            ih (by simpa using h)]

theorem sum_squares_nonneg (v : List ℝ) : 0 ≤ (v.map fun c => c * c).sum := by
  refine List.sum_nonneg ?_
  intro x hx
  obtain ⟨c, -, rfl⟩ := List.mem_map.mp hx
  exact mul_self_nonneg c

theorem eq_of_sum_squares {a b : List ℝ} (h : a.length = b.length)
    (hsum : ((List.zipWith (· - ·) b a).map fun c => c * c).sum = 0) : b = a := by
  induction a generalizing b with
  | nil => exact List.eq_nil_of_length_eq_zero h.symm
  | cons x a ih =>
      cases b with
      | nil => simp at h
      | cons y b =>
          rw [List.zipWith_cons_cons, List.map_cons, List.sum_cons] at hsum
          obtain ⟨hx, hrest⟩ := (add_eq_zero_iff_of_nonneg (mul_self_nonneg _)
            (sum_squares_nonneg _)).mp hsum
          rw [sub_eq_zero.mp (mul_self_eq_zero.mp hx), ih (by simpa using h) hrest]

theorem straight (d : Nat) : Space.Straight {r : Row ℝ | r.columns.length = d} where
  norm_nonneg _ := Real.sqrt_nonneg _
  along_zero {a b} ha hb := by
    have h : a.columns.length = b.columns.length := ha.trans hb.symm
    show Row.mk _ = a
    cases a
    exact congrArg Row.mk (add_scale_zero h)
  eq_of_norm_sub {a b} ha hb h := by
    have hlength : a.columns.length = b.columns.length := ha.trans hb.symm
    have hsum := (Real.sqrt_eq_zero (Scalar.sum_eq _ ▸ sum_squares_nonneg _)).mp h
    rw [Scalar.sum_eq] at hsum
    cases a
    cases b
    exact congrArg Row.mk (eq_of_sum_squares hlength hsum)

end Row

namespace Path

/-! ### Searching -/

/-- The search stops before the first segment that begins too late. -/
theorem segmentAt_spec (d : ℝ) (s : Segment V ℝ) (later : List (Segment V ℝ)) (hs : s.before ≤ d) :
    ∃ k, (s :: later)[k]? = some (segmentAt d s later) ∧ (segmentAt d s later).before ≤ d ∧
      ∀ r, (s :: later)[k + 1]? = some r → d < r.before := by
  induction later generalizing s with
  | nil => exact ⟨0, rfl, hs, by simp⟩
  | cons r later ih =>
      unfold segmentAt
      by_cases h : d < r.before
      · rw [if_pos (Scalar.lt_iff.mpr h)]
        refine ⟨0, rfl, hs, ?_⟩
        intro r' hr'
        obtain rfl : r = r' := by simpa using hr'
        exact h
      · rw [if_neg (mt Scalar.lt_iff.mp h)]
        obtain ⟨k, hk, hle, hnext⟩ := ih r (not_lt.mp h)
        exact ⟨k + 1, hk, hle, hnext⟩

variable [Space V ℝ]

/-! ### Lengths -/

/-- The lengths of the pieces of a path. -/
def lengths (points : List V) : List ℝ :=
  List.zipWith (fun a b => Space.norm (Space.sub b a)) points points.tail

/-- The length of a path. -/
def total (points : List V) : ℝ := (lengths points).sum

/-- The length of the first pieces of a path. -/
def lengthTo (points : List V) (k : Nat) : ℝ := ((lengths points).take k).sum

theorem lengths_cons (a b : V) (rest : List V) :
    lengths (a :: b :: rest) = Space.norm (Space.sub b a) :: lengths (b :: rest) := rfl

theorem length_lengths (first : V) (rest : List V) :
    (lengths (first :: rest)).length = rest.length := by
  simp [lengths]

theorem lengthTo_zero (points : List V) : lengthTo points 0 = 0 := by
  simp [lengthTo]

theorem lengthTo_succ (points : List V) (k : Nat) :
    lengthTo points (k + 1) = lengthTo points k + (lengths points).getD k 0 := by
  rw [lengthTo, List.take_add_one, List.sum_append, List.getD_eq_getElem?_getD, lengthTo]
  cases (lengths points)[k]? <;> simp

theorem lengthTo_cons (a b : V) (rest : List V) (k : Nat) :
    lengthTo (a :: b :: rest) (k + 1) = Space.norm (Space.sub b a) + lengthTo (b :: rest) k := by
  rw [lengthTo, lengths_cons, List.take_succ_cons, List.sum_cons, lengthTo]

theorem lengthTo_all (first : V) (rest : List V) :
    lengthTo (first :: rest) rest.length = total (first :: rest) := by
  rw [lengthTo, List.take_of_length_le (length_lengths first rest).le, total]

/-! ### Segments -/

theorem length_segmentsFrom (start : V) (before : ℝ) (rest : List V) :
    (segmentsFrom start before rest).length = rest.length := by
  induction rest generalizing start before with
  | nil => rfl
  | cons next rest ih =>
      unfold segmentsFrom
      rw [List.length_cons, List.length_cons, ih]

theorem lengthFrom_segmentsFrom (start : V) (before : ℝ) (rest : List V) :
    lengthFrom before (segmentsFrom start before rest) = before + total (start :: rest) := by
  induction rest generalizing start before with
  | nil => simp [segmentsFrom, lengthFrom, total, lengths]
  | cons next rest ih =>
      unfold segmentsFrom lengthFrom
      rw [ih, total, total, lengths_cons, List.sum_cons, add_assoc]

theorem getElem?_segmentsFrom {start : V} {before : ℝ} {rest : List V} {k : Nat}
    {s : Segment V ℝ} (h : (segmentsFrom start before rest)[k]? = some s) :
    ∃ b, (start :: rest)[k]? = some s.start ∧ (start :: rest)[k + 1]? = some b ∧
      s.step = Space.sub b s.start ∧ (lengths (start :: rest))[k]? = some s.length ∧
      s.before = before + lengthTo (start :: rest) k := by
  induction rest generalizing start before k with
  | nil => simp [segmentsFrom] at h
  | cons next rest ih =>
      unfold segmentsFrom at h
      cases k with
      | zero =>
          obtain rfl : _ = s := by simpa using h
          exact ⟨next, rfl, rfl, rfl, rfl, by rw [lengthTo_zero, add_zero]⟩
      | succ k =>
          obtain ⟨b, hstart, hend, hstep, hlength, hbefore⟩ := ih (by simpa using h)
          refine ⟨b, by simpa using hstart, by simpa using hend, hstep, ?_, ?_⟩
          · rw [lengths_cons, List.getElem?_cons_succ, hlength]
          · rw [hbefore, lengthTo_cons, add_assoc]

/-! ### Distances -/

theorem leastLength_eq : (leastLength : ℝ) = 1 / 10 ^ 8 := by
  show ((1 : Nat) : ℝ) / 10 ^ 8 = 1 / 10 ^ 8
  rw [Nat.cast_one]

theorem leastLength_pos : (0 : ℝ) < leastLength := by
  rw [leastLength_eq]
  norm_num

theorem target_eq (total : ℝ) {n i : Nat} (hn : 2 ≤ n) :
    target total n i = i * total / (n - 1) := by
  have hpos : (0 : ℝ) < n - 1 := by
    have : (2 : ℝ) ≤ n := by exact_mod_cast hn
    linarith
  unfold target
  by_cases hi : i + 1 = n ∧ 1 < n
  · have hlast : (i : ℝ) = n - 1 := by
      rw [← hi.1, Nat.cast_add, Nat.cast_one, add_sub_cancel_right]
    rw [if_pos hi, hlast, mul_div_cancel_left₀ _ hpos.ne']
  · rw [if_neg hi, if_neg (by omega)]
    show ((i : ℤ) : ℝ) * (total / ((n - 1 : ℕ) : ℤ)) = i * total / (n - 1)
    rw [Int.cast_natCast, Int.cast_natCast, Nat.cast_sub (by omega), Nat.cast_one, mul_div_assoc]

theorem target_mono {total : ℝ} (htotal : 0 ≤ total) {n i j : Nat} (hn : 2 ≤ n) (hij : i ≤ j) :
    target total n i ≤ target total n j := by
  have hpos : (0 : ℝ) ≤ n - 1 := by
    have : (2 : ℝ) ≤ n := by exact_mod_cast hn
    linarith
  rw [target_eq total hn, target_eq total hn]
  gcongr

theorem target_zero (total : ℝ) {n : Nat} (hn : 2 ≤ n) : target total n 0 = 0 := by
  rw [target_eq total hn, Nat.cast_zero, zero_mul, zero_div]

theorem target_last (total : ℝ) {n : Nat} (hn : 2 ≤ n) : target total n (n - 1) = total := by
  unfold target
  rw [if_pos (by omega)]

/-! ### Pieces -/

/-- A piece of a path that a walk of the given length ends in, the last one there is. -/
structure Reaches (points : List V) (d : ℝ) (k : Nat) : Prop where
  piece : k < (lengths points).length
  begun : lengthTo points k ≤ d
  reached : d ≤ lengthTo points (k + 1)
  last : k + 1 < (lengths points).length → d < lengthTo points (k + 1)

/-- Where along a path the point lies that divides a piece. -/
def position (points : List V) (k : Nat) (t : ℝ) : ℝ :=
  lengthTo points k + t * (lengths points).getD k 0

/-- How a distance divides a piece. -/
noncomputable def share (points : List V) (k : Nat) (d : ℝ) : ℝ :=
  (d - lengthTo points k) / max ((lengths points).getD k 0) leastLength

section Pieces

variable {points : List V} {d d' : ℝ} {k k' : Nat}

theorem divisor_pos : 0 < max ((lengths points).getD k 0) leastLength :=
  lt_max_of_lt_right leastLength_pos

namespace Reaches

theorem left_le (h : Reaches points d k) : d - lengthTo points k ≤ (lengths points).getD k 0 := by
  have := h.reached
  rw [lengthTo_succ] at this
  linarith

theorem share_nonneg (h : Reaches points d k) : 0 ≤ share points k d :=
  div_nonneg (sub_nonneg.mpr h.begun) divisor_pos.le

theorem share_le_one (h : Reaches points d k) : share points k d ≤ 1 := by
  unfold share
  rw [div_le_one divisor_pos]
  exact h.left_le.trans (le_max_left _ _)

/-- A piece that is long enough, or has no length, is divided exactly. -/
theorem position_eq (h : Reaches points d k)
    (hpiece : (lengths points).getD k 0 = 0 ∨ leastLength ≤ (lengths points).getD k 0) :
    position points k (share points k d) = d := by
  have hleft := h.left_le
  have hbegun := h.begun
  unfold position share
  rcases hpiece with hnone | hlong
  · rw [hnone, mul_zero, add_zero]
    rw [hnone] at hleft
    linarith
  · rw [max_eq_left hlong, div_mul_cancel₀ _ (leastLength_pos.trans_le hlong).ne']
    ring

end Reaches

variable {S : Set V} (hS : Space.Straight S)

include hS

theorem lengths_nonneg : ∀ l ∈ lengths points, 0 ≤ l := by
  intro l hl
  obtain ⟨i, hi, rfl⟩ := List.mem_iff_getElem.mp hl
  simp only [lengths, List.getElem_zipWith]
  exact hS.norm_nonneg _

theorem piece_nonneg (points : List V) (k : Nat) : 0 ≤ (lengths points).getD k 0 := by
  by_cases h : k < (lengths points).length
  · rw [List.getD_eq_getElem _ _ h]
    exact lengths_nonneg hS _ (List.getElem_mem h)
  · rw [List.getD_eq_default _ _ (not_lt.mp h)]

theorem lengthTo_mono (points : List V) : Monotone (lengthTo points) := by
  refine monotone_nat_of_le_succ ?_
  intro k
  rw [lengthTo_succ]
  exact le_add_of_nonneg_right (piece_nonneg hS points k)

/-- A greater distance does not end in an earlier piece. -/
theorem Reaches.le (h : Reaches points d k) (h' : Reaches points d' k') (hd : d ≤ d') :
    k ≤ k' := by
  by_contra hk
  have hbefore : d' < lengthTo points (k' + 1) := h'.last (by have := h.piece; omega)
  have hafter : lengthTo points (k' + 1) ≤ d := (lengthTo_mono hS points (by omega)).trans h.begun
  linarith

namespace Reaches

/-- A shorter piece is divided too early, but by less than its length. -/
theorem position_near (h : Reaches points d k) :
    |position points k (share points k d) - d| < leastLength := by
  by_cases hlong : leastLength ≤ (lengths points).getD k 0
  · rw [h.position_eq (.inr hlong), sub_self, abs_zero]
    exact leastLength_pos
  · rw [not_le] at hlong
    have hlow : 0 ≤ share points k d * (lengths points).getD k 0 :=
      mul_nonneg h.share_nonneg (piece_nonneg hS points k)
    have hhigh : share points k d * (lengths points).getD k 0 ≤ d - lengthTo points k := by
      unfold share
      rw [max_eq_right hlong.le, div_mul_eq_mul_div, div_le_iff₀ leastLength_pos]
      exact mul_le_mul_of_nonneg_left hlong.le (sub_nonneg.mpr h.begun)
    have hleft := h.left_le
    unfold position
    rw [abs_lt]
    constructor <;> linarith

theorem share_zero (h : Reaches points 0 k) : share points k 0 = 0 := by
  have hk : 0 ≤ lengthTo points k := lengthTo_zero points ▸ lengthTo_mono hS points k.zero_le
  unfold share
  rw [le_antisymm h.begun hk, sub_zero, zero_div]

theorem position_mono (h : Reaches points d k) (h' : Reaches points d' k') (hd : d ≤ d') :
    position points k (share points k d) ≤ position points k' (share points k' d') := by
  rcases (h.le hS h' hd).eq_or_lt with rfl | hk
  · have hshare : share points k d ≤ share points k d' :=
      div_le_div_of_nonneg_right (sub_le_sub_right hd _) divisor_pos.le
    exact add_le_add_right (mul_le_mul_of_nonneg_right hshare (piece_nonneg hS points k)) _
  · calc position points k (share points k d)
        ≤ lengthTo points k + (lengths points).getD k 0 := by
          unfold position
          have := mul_le_of_le_one_left (piece_nonneg hS points k) (h.share_le_one)
          linarith
      _ = lengthTo points (k + 1) := (lengthTo_succ points k).symm
      _ ≤ lengthTo points k' := lengthTo_mono hS points hk
      _ ≤ position points k' (share points k' d') :=
          le_add_of_nonneg_right (mul_nonneg h'.share_nonneg (piece_nonneg hS points k'))

end Reaches

/-- Where a path has had no length so far it is still where it began. -/
theorem eq_first_of_lengthTo {first a : V} {rest : List V} {k : Nat}
    (hpoints : ∀ p ∈ first :: rest, p ∈ S) (ha : (first :: rest)[k]? = some a)
    (hk : lengthTo (first :: rest) k ≤ 0) : a = first := by
  induction rest generalizing first k with
  | nil =>
      cases k with
      | zero => simpa using ha.symm
      | succ k => simp at ha
  | cons next rest ih =>
      cases k with
      | zero => simpa using ha.symm
      | succ k =>
          rw [lengthTo_cons] at hk
          have hstep : 0 ≤ Space.norm (Space.sub next first) := hS.norm_nonneg _
          have hrest : 0 ≤ lengthTo (next :: rest) k :=
            lengthTo_zero (next :: rest) ▸ lengthTo_mono hS (next :: rest) k.zero_le
          have hnext : next = first :=
            hS.eq_of_norm_sub (hpoints first (by simp)) (hpoints next (by simp)) (by linarith)
          rw [ih (fun p hp => hpoints p (List.mem_cons_of_mem _ hp)) (by simpa using ha)
            (by linarith), hnext]

end Pieces

/-! ### Walking -/

theorem pointAt_eq {points : List V} {s : Segment V ℝ} {b : V} {k : Nat} {d : ℝ}
    (hstep : s.step = Space.sub b s.start) (hlength : (lengths points)[k]? = some s.length)
    (hbefore : s.before = lengthTo points k) :
    pointAt d s = Space.along (share points k d) s.start b := by
  unfold pointAt Space.along share
  rw [hstep, hbefore, List.getD_eq_getElem?_getD, hlength, Option.getD_some]
  by_cases h : leastLength < s.length
  · rw [if_pos (Scalar.lt_iff.mpr h), max_eq_left h.le]
  · rw [if_neg (mt Scalar.lt_iff.mp h), max_eq_right (not_lt.mp h)]

/-- The search finds a piece in which the walk ends, and the point divides it by its share. -/
theorem exists_reaches {first next : V} {rest : List V} {d : ℝ} {s : Segment V ℝ}
    {later : List (Segment V ℝ)} (hs : segmentsFrom first 0 (next :: rest) = s :: later)
    (hd : 0 ≤ d) (hd' : d ≤ total (first :: next :: rest)) :
    ∃ k, Reaches (first :: next :: rest) d k ∧
      ∃ a b, (first :: next :: rest)[k]? = some a ∧ (first :: next :: rest)[k + 1]? = some b ∧
        pointAt d (segmentAt d s later) =
          Space.along (share (first :: next :: rest) k d) a b := by
  have hbefore : s.before = 0 := by
    unfold segmentsFrom at hs
    rw [← (List.cons.inj hs).1]
  obtain ⟨k, hk, hbegun, hnext⟩ := segmentAt_spec d s later (hbefore ▸ hd)
  rw [← hs] at hk hnext
  obtain ⟨b, hstart, hend, hstep, hlength, hat⟩ := getElem?_segmentsFrom hk
  rw [zero_add] at hat
  have hpiece : k < (lengths (first :: next :: rest)).length :=
    (List.getElem?_eq_some_iff.mp hlength).1
  have hlast : k + 1 < (lengths (first :: next :: rest)).length →
      d < lengthTo (first :: next :: rest) (k + 1) := by
    intro h
    rw [length_lengths, ← length_segmentsFrom first 0] at h
    obtain ⟨-, -, -, -, -, hbefore'⟩ := getElem?_segmentsFrom (List.getElem?_eq_getElem h)
    rw [zero_add] at hbefore'
    exact hbefore' ▸ hnext _ (List.getElem?_eq_getElem h)
  refine ⟨k, ⟨hpiece, hat ▸ hbegun, ?_, hlast⟩, _, b, hstart, hend, ?_⟩
  · by_cases h : k + 1 < (lengths (first :: next :: rest)).length
    · exact (hlast h).le
    · rw [length_lengths] at h hpiece
      rw [show k + 1 = (next :: rest).length by omega, lengthTo_all]
      exact hd'
  · exact pointAt_eq hstep hlength hat

/-- Samples of a path, each given by its piece and its share of it, and each near its distance. -/
structure EvenlySpaced (points samples : List V) (n : Nat) (k : Nat → Nat) (t : Nat → ℝ) :
    Prop where
  count : samples.length = n
  first : samples[0]? = points[0]?
  sample : ∀ i < n, ∃ a b, points[k i]? = some a ∧ points[k i + 1]? = some b ∧
    samples[i]? = some (Space.along (t i) a b)
  within : ∀ i < n, 0 ≤ t i ∧ t i ≤ 1
  near : ∀ i < n, |position points (k i) (t i) - i * total points / (n - 1)| < 1 / 10 ^ 8
  exact : (∀ l ∈ lengths points, l = 0 ∨ 1 / 10 ^ 8 ≤ l) →
    ∀ i < n, position points (k i) (t i) = i * total points / (n - 1)
  ordered : ∀ i j, i ≤ j → j < n → position points (k i) (t i) ≤ position points (k j) (t j)

theorem resample_eq {first next : V} {rest : List V} (n : Nat)
    (htotal : leastLength ≤ total (first :: next :: rest)) :
    ∃ s later, segmentsFrom first 0 (next :: rest) = s :: later ∧
      resample first (next :: rest) n = (List.range n).map fun i =>
        pointAt (target (total (first :: next :: rest)) n i)
          (segmentAt (target (total (first :: next :: rest)) n i) s later) := by
  have hlength := lengthFrom_segmentsFrom first 0 (next :: rest)
  unfold resample
  rw [Scalar.zero_eq]
  match hs : segmentsFrom first 0 (next :: rest) with
  | [] => simp [segmentsFrom] at hs
  | s :: later =>
      rw [hs, zero_add] at hlength
      refine ⟨s, later, rfl, ?_⟩
      show (if Scalar.lt (lengthFrom 0 (s :: later)) leastLength then _ else _) = _
      rw [hlength, if_neg (mt Scalar.lt_iff.mp (not_lt.mpr htotal))]

/-- A sample stands for a distance, in the piece that a walk of that distance ends in. -/
theorem exists_piece {first : V} {rest : List V} {n i : Nat} (hn : 2 ≤ n)
    (htotal : leastLength ≤ total (first :: rest)) (hi : i < n) :
    ∃ k, Reaches (first :: rest) (target (total (first :: rest)) n i) k ∧
      ∃ a b, (first :: rest)[k]? = some a ∧ (first :: rest)[k + 1]? = some b ∧
        (resample first rest n)[i]? =
          some (Space.along (share (first :: rest) k (target (total (first :: rest)) n i)) a b) :=
    by
  cases rest with
  | nil =>
      have hpos := leastLength_pos.trans_le htotal
      simp [total, lengths] at hpos
  | cons next rest =>
      obtain ⟨s, later, hs, hresample⟩ := resample_eq n htotal
      have hnonneg : 0 ≤ total (first :: next :: rest) := leastLength_pos.le.trans htotal
      have hlow := target_mono hnonneg hn i.zero_le
      have hhigh := target_mono hnonneg hn (show i ≤ n - 1 by omega)
      rw [target_zero _ hn] at hlow
      rw [target_last _ hn] at hhigh
      obtain ⟨k, hreaches, a, b, ha, hb, hpoint⟩ := exists_reaches hs hlow hhigh
      refine ⟨k, hreaches, a, b, ha, hb, ?_⟩
      rw [hresample, List.getElem?_map, List.getElem?_range hi, Option.map_some, hpoint]

/-- There is only one such piece, so whoever finds it knows the sample. -/
theorem getElem?_resample {S : Set V} (hS : Space.Straight S) {first a b : V} {rest : List V}
    {n i k : Nat} (hn : 2 ≤ n) (htotal : leastLength ≤ total (first :: rest)) (hi : i < n)
    (hk : Reaches (first :: rest) (target (total (first :: rest)) n i) k)
    (ha : (first :: rest)[k]? = some a) (hb : (first :: rest)[k + 1]? = some b) :
    (resample first rest n)[i]? =
      some (Space.along (share (first :: rest) k (target (total (first :: rest)) n i)) a b) := by
  obtain ⟨k', hk', a', b', ha', hb', hsample⟩ := exists_piece hn htotal hi
  obtain rfl : k' = k := le_antisymm (hk'.le hS hk le_rfl) (hk.le hS hk' le_rfl)
  rw [hsample, Option.some.inj (ha'.symm.trans ha), Option.some.inj (hb'.symm.trans hb)]

theorem evenlySpaced_resample {S : Set V} (hS : Space.Straight S) {first : V} {rest : List V}
    {n : Nat} (hpoints : ∀ p ∈ first :: rest, p ∈ S) (hn : 2 ≤ n)
    (htotal : 1 / 10 ^ 8 ≤ total (first :: rest)) :
    ∃ k t, EvenlySpaced (first :: rest) (resample first rest n) n k t := by
  rw [← leastLength_eq] at htotal
  have hnonneg : 0 ≤ total (first :: rest) := leastLength_pos.le.trans htotal
  choose! k hk using fun i (hi : i < n) => exists_piece hn htotal hi
  refine ⟨k, fun i => share (first :: rest) (k i) (target (total (first :: rest)) n i), ?_⟩
  constructor
  case count => exact length_resample first rest n
  case first =>
    obtain ⟨h, a, b, ha, hb, hsample⟩ := hk 0 (by omega)
    rw [target_zero _ hn] at h hsample
    have hfirst : a = first := eq_first_of_lengthTo hS hpoints ha h.begun
    rw [hsample, h.share_zero hS, hS.along_zero (hpoints _ (List.mem_of_getElem? ha))
      (hpoints _ (List.mem_of_getElem? hb)), hfirst, List.getElem?_cons_zero]
  case sample => exact fun i hi => (hk i hi).2
  case within => exact fun i hi => ⟨(hk i hi).1.share_nonneg, (hk i hi).1.share_le_one⟩
  case near =>
    intro i hi
    rw [← target_eq _ hn, ← leastLength_eq]
    exact (hk i hi).1.position_near hS
  case exact =>
    intro hlengths i hi
    have hpiece := (hk i hi).1.piece
    rw [← target_eq _ hn]
    refine (hk i hi).1.position_eq ?_
    rw [leastLength_eq, List.getD_eq_getElem _ _ hpiece]
    exact hlengths _ (List.getElem_mem hpiece)
  case ordered =>
    intro i j hij hj
    exact (hk i (by omega)).1.position_mono hS (hk j hj).1 (target_mono hnonneg hn hij)

end Path

/-- A path of some length is sampled at even distances, with any number of coordinates. -/
theorem resample_spaces_evenly (n : Nat) (hn : 2 ≤ n) :
    (∀ (first : Vec ℝ) (rest : List (Vec ℝ)), 1 / 10 ^ 8 ≤ Path.total (first :: rest) →
      ∃ k t, Path.EvenlySpaced (first :: rest) (Path.resample first rest n) n k t) ∧
    ∀ (columns : Nat) (first : Row ℝ) (rest : List (Row ℝ)),
      (∀ p ∈ first :: rest, p.columns.length = columns) →
      1 / 10 ^ 8 ≤ Path.total (first :: rest) →
      ∃ k t, Path.EvenlySpaced (first :: rest) (Path.resample first rest n) n k t := by
  constructor
  · intro first rest htotal
    exact Path.evenlySpaced_resample Vec.straight (fun _ _ => Set.mem_univ _) hn htotal
  · intro columns first rest hcolumns htotal
    exact Path.evenlySpaced_resample (Row.straight columns) hcolumns hn htotal

/-- A stay at the beginning takes no part of the way. -/
theorem stay_is_spaced_evenly :
    2 ≤ 3 ∧ 1 / 10 ^ 8 ≤ Path.total [(⟨0, 0⟩ : Vec ℝ), ⟨0, 0⟩, ⟨0, 1⟩] ∧
    ∃ k t, Path.EvenlySpaced [(⟨0, 0⟩ : Vec ℝ), ⟨0, 0⟩, ⟨0, 1⟩]
      (Path.resample ⟨0, 0⟩ [⟨0, 0⟩, ⟨0, 1⟩] 3) 3 k t := by
  have htotal : 1 / 10 ^ 8 ≤ Path.total [(⟨0, 0⟩ : Vec ℝ), ⟨0, 0⟩, ⟨0, 1⟩] := by
    simp [Path.total, Path.lengths, Space.norm, Space.sub, Scalar.sqrt]
    norm_num
  exact ⟨by decide, htotal, (resample_spaces_evenly 3 (by decide)).1 _ _ htotal⟩

end GestureStore
