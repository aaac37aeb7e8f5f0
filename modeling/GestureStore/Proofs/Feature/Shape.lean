/-
How long the vector of a path is, over exact numbers.

Centred samples are balanced about the origin: what they are off to one side they are off
to the other (`Balanced`).  Turning and scaling do not change that.  The vector of centred
samples is scaled to length one if it is long enough, and turning does not change how long
it is.  So what decides is how far the samples extend from their centroid, before anything
is turned or scaled.

Three things may come of it.  Samples that are all in one place give zeros: there is only
one of them, or the path is too short to be divided, or they happen to meet.  Samples that
extend far enough give length one.  In between they are left as short as they are, and the
vector is neither.  A path may be of any length and still end up there, if it comes back to
the same place by the time of each sample.
-/
import GestureStore.Proofs.Feature.Angle
import GestureStore.Proofs.Feature.Resampling

namespace GestureStore

open Learner (dot)

/-- A point of the plane as a row of two coordinates. -/
def Row.ofVec (p : Vec α) : Row α := ⟨[p.x, p.y]⟩

/-! ### Samples -/

namespace Path

/-- A path that is too short to be divided is sampled where it begins. -/
theorem resample_of_short {first : Vec ℝ} {rest : List (Vec ℝ)} (n : Nat)
    (h : total (first :: rest) < 1e-8) : resample first rest n = List.replicate n first := by
  have hlength := lengthFrom_segmentsFrom first 0 rest
  unfold resample
  rw [Scalar.zero_eq]
  cases hs : segmentsFrom first 0 rest with
  | nil => rfl
  | cons s later =>
      rw [hs, zero_add] at hlength
      have hshort : total (first :: rest) < leastLength := by
        rw [leastLength_eq]
        norm_num at h ⊢
        exact h
      dsimp only
      rw [hlength, if_pos (Scalar.lt_iff.mpr hshort)]

section
variable {first a b : Vec ℝ} {rest : List (Vec ℝ)} {n k : Nat}

theorem resample_first (hn : 2 ≤ n) (htotal : leastLength ≤ total (first :: rest)) :
    (resample first rest n)[0]? = some first := by
  rw [leastLength_eq] at htotal
  obtain ⟨k, t, heven⟩ := evenlySpaced_resample Vec.straight (fun _ _ => Set.mem_univ _) hn htotal
  exact heven.first

/-- Where the last piece is long enough, the last sample is the end of the path. -/
theorem resample_last (hn : 2 ≤ n) (ha : (first :: rest)[k]? = some a)
    (hb : (first :: rest)[k + 1]? = some b) (hk : k + 1 = rest.length)
    (hpiece : leastLength ≤ (lengths (first :: rest)).getD k 0) :
    (resample first rest n)[n - 1]? = some b := by
  have hpos := leastLength_pos
  have hlast : lengthTo (first :: rest) (k + 1) = total (first :: rest) := by
    rw [hk, lengthTo_all]
  have hsplit := lengthTo_succ (first :: rest) k
  have hbefore : 0 ≤ lengthTo (first :: rest) k :=
    lengthTo_zero (first :: rest) ▸ lengthTo_mono Vec.straight _ k.zero_le
  have hreaches : Reaches (first :: rest) (total (first :: rest)) k := by
    refine ⟨?_, by linarith, hlast.ge, ?_⟩
    · rw [length_lengths]
      omega
    · rw [length_lengths]
      omega
  have hshare : share (first :: rest) k (total (first :: rest)) = 1 := by
    rw [share, max_eq_left hpiece, ← hlast, hsplit, add_sub_cancel_left, div_self (by linarith)]
  have htotal : leastLength ≤ total (first :: rest) := by linarith
  rw [← target_last (total (first :: rest)) hn] at hreaches hshare
  rw [getElem?_resample Vec.straight hn htotal (by omega) hreaches ha hb, hshare, Vec.along_one]

end

end Path

namespace Shape

section
variable [Scalar α]

omit [Scalar α] in
theorem mapM_planar? (points : List (Vec α)) : (points.map Row.ofVec).mapM planar? = some points := by
  induction points with
  | nil => rfl
  | cons p rest ih =>
      rw [List.map_cons, List.mapM_cons, ih]
      rfl

/-- Where there is a point, and a sample to take, there is a vector. -/
theorem sampled_eq (orientation : Option Orientation) {n : Nat} (hn : 1 ≤ n) (first : Vec α)
    (rest : List (Vec α)) :
    sampled orientation ((first :: rest).map Row.ofVec) (some n)
      = .ok (features orientation n first rest) := by
  have hsamples : resampled (first :: rest) (some (n : ℤ)) = .ok (Path.resample first rest n) := by
    unfold resampled
    dsimp only
    rw [if_neg (by omega), Int.toNat_natCast]
  have hsome : (Path.resample first rest n).isEmpty = false := by
    rw [List.isEmpty_eq_false_iff, ← List.length_pos_iff, Path.length_resample]
    exact hn
  unfold sampled
  rw [mapM_planar?]
  dsimp only
  rw [hsamples]
  show (if (Path.resample first rest n).isEmpty && _ then _ else _) = _
  rw [hsome]
  rfl

end

/-! ### Balance -/

/-- The points are off to one side as much as to the other. -/
structure Balanced (points : List (Vec ℝ)) : Prop where
  x : (points.map Vec.x).sum = 0
  y : (points.map Vec.y).sum = 0

theorem balanced_centered (points : List (Vec ℝ)) : Balanced (centered points) := by
  have hsum : ∀ f : Vec ℝ → ℝ,
      (points.map fun p => f p + -(Scalar.sum (points.map f) / Scalar.ofInt points.length)).sum = 0 := by
    intro f
    rw [Scalar.sum_eq, List.sum_map_add, List.map_const', List.sum_replicate, nsmul_eq_mul]
    show _ + (points.length : ℝ) * -(_ / ((points.length : ℤ) : ℝ)) = 0
    rw [Int.cast_natCast]
    cases points with
    | nil => simp
    | cons p rest =>
        rw [mul_neg, mul_div_cancel₀ _ (Nat.cast_ne_zero.mpr (by simp)), add_neg_cancel]
  simp only [← sub_eq_add_neg] at hsum
  refine ⟨?_, ?_⟩
  · rw [centered, List.map_map]
    exact hsum Vec.x
  · rw [centered, List.map_map]
    exact hsum Vec.y

/-- A linear map keeps the balance. -/
theorem Balanced.map {points : List (Vec ℝ)} (h : Balanced points) (a b c d : ℝ) :
    Balanced (points.map fun p => ⟨a * p.x + b * p.y, c * p.x + d * p.y⟩) := by
  have hsum : ∀ a b : ℝ, (points.map fun p => a * p.x + b * p.y).sum = 0 := by
    intro a b
    rw [List.sum_map_add, List.sum_map_mul_left, List.sum_map_mul_left, h.x, h.y, mul_zero,
      mul_zero, add_zero]
  refine ⟨?_, ?_⟩
  · rw [List.map_map]
    exact hsum a b
  · rw [List.map_map]
    exact hsum c d

theorem Balanced.turned {points : List (Vec ℝ)} (h : Balanced points) (c s : ℝ) :
    Balanced (points.map (turned c s)) := by
  have hturned : Shape.turned c s = fun p : Vec ℝ => ⟨c * p.x + -s * p.y, s * p.x + c * p.y⟩ := by
    funext p
    rw [Shape.turned, mul_comm p.x, mul_comm p.y, mul_comm p.x, mul_comm p.y]
  rw [hturned]
  exact h.map c (-s) s c

theorem Balanced.scaled {points : List (Vec ℝ)} (h : Balanced points) (k : ℝ) :
    Balanced (points.map (Space.scale k)) := by
  have hscaled : Space.scale k = fun p : Vec ℝ => ⟨k * p.x + 0 * p.y, 0 * p.x + k * p.y⟩ := by
    funext p
    rw [zero_mul, zero_mul, add_zero, zero_add]
    rfl
  rw [hscaled]
  exact h.map k 0 0 k

theorem Balanced.straightened {points : List (Vec ℝ)} (h : Balanced points) :
    Balanced (straightened points) := by
  cases points with
  | nil => exact h
  | cons first rest => exact h.turned _ _

/-! ### Lengths -/

/-- Scaled or not, a vector of points is one of points. -/
theorem exists_normalized_eq (points : List (Vec ℝ)) :
    ∃ k : ℝ, normalized (flattened points) = flattened (points.map (Space.scale k)) := by
  have hscaled : ∀ k : ℝ,
      flattened (points.map (Space.scale k)) = (flattened points).map (k * ·) := by
    intro k
    rw [flattened, flattened, List.flatMap_map, List.map_flatMap]
    rfl
  by_cases h : 1e-12 < norm (flattened points)
  · refine ⟨(norm (flattened points))⁻¹, ?_⟩
    rw [normalized_of_lt h, hscaled]
    refine List.map_congr_left fun c _ => ?_
    rw [div_eq_inv_mul]
  · refine ⟨1, ?_⟩
    rw [normalized_of_le (not_lt.mp h), hscaled]
    simp

theorem dot_self_eq_zero_iff {v : List ℝ} : dot v v = 0 ↔ ∀ c ∈ v, c = 0 := by
  induction v with
  | nil => simp
  | cons a v ih =>
      rw [Learner.dot_cons, add_eq_zero_iff_of_nonneg (mul_self_nonneg a) (Learner.dot_self_nonneg v),
        mul_self_eq_zero, ih, List.forall_mem_cons]

theorem norm_nonneg (v : List ℝ) : 0 ≤ norm v := by
  rw [norm_eq]
  exact Real.sqrt_nonneg _

/-- **A vector gets length one, or stays zero, exactly if it was long enough or zero.** -/
theorem dot_normalized_iff (v : List ℝ) :
    (dot (normalized v) (normalized v) = 1 ∨ ∀ c ∈ normalized v, c = 0) ↔
      1e-12 < norm v ∨ norm v = 0 := by
  by_cases h : 1e-12 < norm v
  · exact iff_of_true (.inl (dot_normalized h)) (.inl h)
  · have hshort : norm v ^ 2 ≠ 1 := by
      have hle := pow_le_pow_left₀ (norm_nonneg v) (not_lt.mp h) 2
      exact (hle.trans_lt (by norm_num)).ne
    rw [normalized_of_le (not_lt.mp h), ← dot_self_eq_zero_iff, ← norm_sq,
      pow_eq_zero_iff two_ne_zero, or_iff_right hshort, or_iff_right h]

/-- Samples that are all in one place do not extend from it. -/
theorem norm_centered_of_short {first : Vec ℝ} {rest : List (Vec ℝ)} {n : Nat} (hn : 1 ≤ n)
    (h : n = 1 ∨ Path.total (first :: rest) < 1e-8) :
    norm (flattened (centered (Path.resample first rest n))) = 0 := by
  obtain ⟨p, hp⟩ : ∃ p, Path.resample first rest n = List.replicate n p := by
    rcases h with rfl | h
    · obtain ⟨p, hp⟩ := List.length_eq_one_iff.mp (Path.length_resample first rest 1)
      exact ⟨p, hp⟩
    · exact ⟨first, Path.resample_of_short n h⟩
  rw [hp]
  exact norm_centered_replicate (by omega) p

end Shape

/-! ### A loop -/

theorem Vec.norm_sub_level (a b : ℝ) : Space.norm (Space.sub (⟨b, 0⟩ : Vec ℝ) ⟨a, 0⟩) = |b - a| := by
  rw [sub_eq, norm_eq, sub_zero, mul_zero, add_zero, Real.sqrt_mul_self_eq_abs]

/-- A path that goes out by one and comes back to near where it began, by its two ends. -/
theorem Path.resample_loop {ε : ℝ} (hhigh : ε ≤ 1 / 2) :
    resample (⟨0, 0⟩ : Vec ℝ) [⟨1, 0⟩, ⟨ε, 0⟩] 2 = [⟨0, 0⟩, ⟨ε, 0⟩] := by
  have hlengths : lengths [(⟨0, 0⟩ : Vec ℝ), ⟨1, 0⟩, ⟨ε, 0⟩] = [1, 1 - ε] := by
    rw [lengths_cons, lengths_cons, Vec.norm_sub_level, Vec.norm_sub_level, sub_zero, abs_one,
      abs_sub_comm, abs_of_pos (by linarith)]
    rfl
  have hback : leastLength ≤ (lengths [(⟨0, 0⟩ : Vec ℝ), ⟨1, 0⟩, ⟨ε, 0⟩]).getD 1 0 := by
    rw [hlengths, leastLength_eq]
    norm_num
    linarith
  have htotal : leastLength ≤ total [(⟨0, 0⟩ : Vec ℝ), ⟨1, 0⟩, ⟨ε, 0⟩] := by
    rw [total, hlengths, leastLength_eq]
    norm_num
    linarith
  have hfirst := resample_first le_rfl htotal
  have hlast := resample_last le_rfl rfl rfl rfl hback
  obtain ⟨p, q, hpq⟩ := List.length_eq_two.mp (length_resample (⟨0, 0⟩ : Vec ℝ) [⟨1, 0⟩, ⟨ε, 0⟩] 2)
  rw [hpq] at hfirst hlast ⊢
  rw [Option.some.inj hfirst, Option.some.inj hlast]

theorem Shape.centroid_of_loop (ε : ℝ) : centroid [(⟨0, 0⟩ : Vec ℝ), ⟨ε, 0⟩] = ⟨ε / 2, 0⟩ := by
  have htwo : (Scalar.ofInt 2 : ℝ) = 2 := Int.cast_two
  simp [centroid, Scalar.sum_eq, htwo]

/-- How far the two samples of such a loop extend. -/
theorem Shape.extent_of_loop {ε : ℝ} (hhigh : ε ≤ 1 / 2) :
    norm (flattened (centered (Path.resample (⟨0, 0⟩ : Vec ℝ) [⟨1, 0⟩, ⟨ε, 0⟩] 2))) ^ 2
      = ε ^ 2 / 2 := by
  have hcentered : centered [(⟨0, 0⟩ : Vec ℝ), ⟨ε, 0⟩]
      = [⟨0 - ε / 2, 0 - 0⟩, ⟨ε - ε / 2, 0 - 0⟩] := by
    rw [centered, centroid_of_loop]
    rfl
  have hflattened : flattened [(⟨0 - ε / 2, 0 - 0⟩ : Vec ℝ), ⟨ε - ε / 2, 0 - 0⟩]
      = [0 - ε / 2, 0 - 0, ε - ε / 2, 0 - 0] := rfl
  rw [Path.resample_loop hhigh, norm_sq, hcentered, hflattened, Learner.dot_cons, Learner.dot_cons,
    Learner.dot_cons, Learner.dot_cons, Learner.dot_nil_left]
  ring

/-! ### The length of a vector -/

open Shape in
/--
**The vector of a path has length one, or else it is left as short as its samples extend.**

Where there is a point and a sample to take, there is a vector, of as many balanced points
as there are samples.  How far the centred samples extend decides on its length: what is
longer than the least length gets length one, and what is not stays as it is.  So it has
length one or is zero exactly if the samples extend farther than that or not at all, and
they do not extend at all if there is only one of them or if the path is too short.
-/
theorem shape_has_length_one_or_is_left_short (orientation : Option Orientation) {n : Nat}
    (hn : 1 ≤ n) (first : Vec ℝ) (rest : List (Vec ℝ)) :
    let extent := norm (flattened (centered (Path.resample first rest n)))
    ∃ points : List (Vec ℝ),
      sampled orientation ((first :: rest).map Row.ofVec) (some n) = .ok (flattened points) ∧
      points.length = n ∧ Balanced points ∧
      (1e-12 < extent → dot (flattened points) (flattened points) = 1) ∧
      (extent ≤ 1e-12 → dot (flattened points) (flattened points) = extent ^ 2) ∧
      ((dot (flattened points) (flattened points) = 1 ∨ ∀ c ∈ flattened points, c = 0) ↔
        1e-12 < extent ∨ extent = 0) ∧
      (n = 1 ∨ Path.total (first :: rest) < 1e-8 → extent = 0) := by
  intro extent
  have hcentered := balanced_centered (Path.resample first rest n)
  obtain ⟨turned, hfeatures, hbalanced, hlength, hnorm⟩ : ∃ turned : List (Vec ℝ),
      features orientation n first rest = normalized (flattened turned) ∧ Balanced turned ∧
        turned.length = n ∧ norm (flattened turned) = extent := by
    have hcount : (centered (Path.resample first rest n)).length = n := by
      rw [centered, List.length_map, Path.length_resample]
    by_cases hturned : orientation = some .invariant
    · refine ⟨_, rfl, ?_, ?_, ?_⟩
      · rw [if_pos hturned]
        exact hcentered.straightened
      · rw [if_pos hturned, length_straightened, hcount]
      · rw [if_pos hturned, norm_straightened]
    · refine ⟨_, rfl, ?_, ?_, ?_⟩
      · rw [if_neg hturned]
        exact hcentered
      · rw [if_neg hturned, hcount]
      · rw [if_neg hturned]
  obtain ⟨k, hk⟩ := exists_normalized_eq turned
  refine ⟨turned.map (Space.scale k), ?_, ?_, hbalanced.scaled k, ?_, ?_, ?_,
    norm_centered_of_short hn⟩
  · rw [sampled_eq orientation hn, hfeatures, hk]
  · rw [List.length_map, hlength]
  · rw [← hk, ← hnorm]
    exact dot_normalized
  · intro h
    rw [← hk, normalized_of_le (by rw [hnorm]; exact h), ← norm_sq, hnorm]
  · rw [← hk, ← hnorm]
    exact dot_normalized_iff _

open Shape in
/-- A path that goes out and comes half the way back has a vector of length one. -/
theorem half_loop_has_length_one :
    let path : List (Vec ℝ) := [⟨0, 0⟩, ⟨1, 0⟩, ⟨1 / 2, 0⟩]
    1 ≤ 2 ∧ ∃ points : List (Vec ℝ),
      sampled (some .invariant) (path.map Row.ofVec) (some 2) = .ok (flattened points) ∧
        dot (flattened points) (flattened points) = 1 ∧ Balanced points := by
  intro path
  have hextent := extent_of_loop (ε := 1 / 2) le_rfl
  obtain ⟨points, hsampled, -, hbalanced, hlong, -⟩ :=
    shape_has_length_one_or_is_left_short (some .invariant) (n := 2) (by decide) ⟨0, 0⟩
      [⟨1, 0⟩, ⟨1 / 2, 0⟩]
  refine ⟨by decide, points, hsampled, hlong ?_, hbalanced⟩
  refine lt_of_pow_lt_pow_left₀ 2 (norm_nonneg _) ?_
  rw [hextent]
  norm_num

open Shape in
/-- A path that comes back nearly all the way has a vector that is not zero and far too short. -/
theorem loop_is_left_short :
    let path : List (Vec ℝ) := [⟨0, 0⟩, ⟨1, 0⟩, ⟨1e-13, 0⟩]
    ∃ v : List ℝ, sampled (some .sensitive) (path.map Row.ofVec) (some 2) = .ok v ∧
      ¬ (dot v v = 1 ∨ ∀ c ∈ v, c = 0) := by
  intro path
  refine ⟨_, sampled_eq (some .sensitive) (by decide) ⟨0, 0⟩ [⟨1, 0⟩, ⟨1e-13, 0⟩], ?_⟩
  have hextent := extent_of_loop (ε := 1e-13) (by norm_num)
  have hfeatures : features (some .sensitive) 2 ⟨0, 0⟩ [⟨1, 0⟩, ⟨1e-13, 0⟩]
      = normalized (flattened (centered (Path.resample (⟨0, 0⟩ : Vec ℝ) [⟨1, 0⟩, ⟨1e-13, 0⟩] 2))) :=
    rfl
  rw [hfeatures, dot_normalized_iff]
  rintro (hlong | hnone)
  · have hsquare := pow_lt_pow_left₀ hlong (by norm_num) two_ne_zero
    rw [hextent] at hsquare
    norm_num at hsquare
  · rw [hnone] at hextent
    norm_num at hextent

end GestureStore
