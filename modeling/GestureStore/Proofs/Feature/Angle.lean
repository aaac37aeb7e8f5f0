/-
Angles between shapes, over exact numbers.

The angle between two vectors is taken from their product as if both had length one.
A shape has that length where its samples extend far enough from their centroid
(`dot_normalized`), and turning them does not change how far they extend
(`norm_straightened`).  Then a shape is at no distance from itself.

A shape that does not extend far enough is left as it is.  It is too short to make a
product of any size with a vector of length one or less, so it is far from every shape,
from itself as well (`one_lt_angle`).
-/
import GestureStore.Proofs.Feature.Instance
import GestureStore.Proofs.Number.Exact

namespace GestureStore

open Learner (dot)

/-! ### Products -/

namespace Learner

theorem dot_eq (v w : List ℝ) : dot v w = (List.zipWith (· * ·) v w).sum := Scalar.sum_eq _

@[simp] theorem dot_nil_left (w : List ℝ) : dot [] w = 0 := by
  rw [dot_eq]
  simp

@[simp] theorem dot_nil_right (v : List ℝ) : dot v [] = 0 := by
  rw [dot_eq]
  simp

@[simp] theorem dot_cons (a b : ℝ) (v w : List ℝ) : dot (a :: v) (b :: w) = a * b + dot v w := by
  rw [dot_eq, dot_eq]
  simp

theorem dot_self_nonneg (v : List ℝ) : 0 ≤ dot v v := by
  induction v with
  | nil => simp
  | cons a v ih =>
      rw [dot_cons]
      have ha := mul_self_nonneg a
      linarith

theorem dot_map_div (v : List ℝ) (k : ℝ) :
    dot (v.map (· / k)) (v.map (· / k)) = dot v v / k ^ 2 := by
  induction v with
  | nil => simp
  | cons a v ih =>
      rw [List.map_cons, dot_cons, ih, dot_cons]
      ring

/-- However the parts of a product are weighted, it is at most their mean. -/
theorem two_mul_dot_le {t : ℝ} (ht : 0 < t) (v w : List ℝ) :
    2 * dot v w ≤ t * dot v v + dot w w / t := by
  induction v generalizing w with
  | nil =>
      have hw := dot_self_nonneg w
      simp only [dot_nil_left, mul_zero, zero_add]
      positivity
  | cons a v ih =>
      cases w with
      | nil =>
          have hv := dot_self_nonneg (a :: v)
          simp only [dot_nil_right, mul_zero, zero_div, add_zero]
          positivity
      | cons b w =>
          have hhead : 2 * (a * b) ≤ t * (a * a) + b * b / t := by
            rw [← sub_nonneg]
            have hsquare : t * (a * a) + b * b / t - 2 * (a * b) = (t * a - b) ^ 2 / t := by
              field_simp
              ring
            rw [hsquare]
            positivity
          have htail := ih w
          rw [dot_cons, dot_cons, dot_cons, add_div]
          linarith

end Learner

namespace Shape

open Learner

theorem norm_eq (v : List ℝ) : norm v = √(dot v v) := by
  have hsum : (v.map fun c => c * c).sum = dot v v := by
    rw [dot_eq]
    induction v with
    | nil => rfl
    | cons a v ih => rw [List.map_cons, List.sum_cons, ih, List.zipWith_cons_cons, List.sum_cons]
  show √(Scalar.sum (v.map fun c => c * c)) = _
  rw [Scalar.sum_eq, hsum]

theorem norm_sq (v : List ℝ) : norm v ^ 2 = dot v v := by
  rw [norm_eq, Real.sq_sqrt (dot_self_nonneg v)]

/-! ### Lengths of shapes -/

theorem leastNorm_eq : (leastNorm : ℝ) = 1e-12 := by
  show ((1 : ℕ) : ℝ) / 10 ^ 12 = _
  norm_num

theorem normalized_of_le {v : List ℝ} (h : norm v ≤ 1e-12) : normalized v = v := by
  have hlt : ¬ Scalar.lt leastNorm (norm v) = true := by
    rw [Scalar.lt_iff, leastNorm_eq]
    exact not_lt.mpr h
  rw [normalized, if_neg hlt]

theorem normalized_of_lt {v : List ℝ} (h : 1e-12 < norm v) : normalized v = v.map (· / norm v) := by
  have hlt : Scalar.lt leastNorm (norm v) = true := by
    rw [Scalar.lt_iff, leastNorm_eq]
    exact h
  rw [normalized, if_pos hlt]

/-- **What extends far enough is scaled to length one.** -/
theorem dot_normalized {v : List ℝ} (h : 1e-12 < norm v) :
    dot (normalized v) (normalized v) = 1 := by
  have hpos : 0 < norm v := lt_trans (by positivity) h
  rw [normalized_of_lt h, dot_map_div, ← norm_sq, div_self (by positivity)]

theorem dot_flattened_turned {c s : ℝ} (h : c ^ 2 + s ^ 2 = 1) (points : List (Vec ℝ)) :
    dot (flattened (points.map (turned c s))) (flattened (points.map (turned c s)))
      = dot (flattened points) (flattened points) := by
  induction points with
  | nil => rfl
  | cons p points ih =>
      have hcons : ∀ (q : Vec ℝ) (qs : List (Vec ℝ)),
          flattened (q :: qs) = q.x :: q.y :: flattened qs := fun _ _ => rfl
      rw [List.map_cons, hcons, hcons, dot_cons, dot_cons, ih, dot_cons, dot_cons]
      show (p.x * c + p.y * -s) * (p.x * c + p.y * -s)
        + ((p.x * s + p.y * c) * (p.x * s + p.y * c) + _) = _
      have hs : s ^ 2 = 1 - c ^ 2 := by linarith
      ring_nf
      rw [hs]
      ring

/-- **Turning points about the origin leaves the length of their vector as it is.** -/
theorem norm_straightened (points : List (Vec ℝ)) :
    norm (flattened (straightened points)) = norm (flattened points) := by
  rw [norm_eq, norm_eq]
  cases points with
  | nil => rfl
  | cons first rest =>
      have hcircle : ∀ angle : ℝ, Scalar.cos angle ^ 2 + Scalar.sin angle ^ 2 = 1 :=
        Real.cos_sq_add_sin_sq
      rw [straightened, dot_flattened_turned (hcircle _)]

end Shape

open Shape in
/-- How far the samples of a stroke extend from their centroid, all of them together. -/
noncomputable def Stroke.extent (s : Stroke) : ℝ :=
  match (s.path : List (Vec ℝ)) with
  | [] => 0
  | first :: rest => norm (flattened (centered (Path.resample first rest shapeSamples)))

namespace Stroke

/-- Turned or not, it is the same length that decides whether a shape is scaled. -/
theorem exists_shape_eq (s : Stroke) (orientation : Option Orientation) :
    ∃ v : List ℝ, s.shape orientation = Shape.normalized v ∧ Shape.norm v = s.extent := by
  unfold shape extent
  cases hpath : (s.path : List (Vec ℝ)) with
  | nil =>
      rw [path, List.map_eq_nil_iff] at hpath
      exact absurd hpath s.nonempty
  | cons first rest =>
      refine ⟨_, rfl, ?_⟩
      by_cases hturned : orientation = some .invariant
      · rw [if_pos hturned, Shape.norm_straightened]
      · rw [if_neg hturned]

theorem dot_shape {s : Stroke} (h : 1e-12 < s.extent) (orientation : Option Orientation) :
    dot (s.shape orientation : List ℝ) (s.shape orientation) = 1 := by
  obtain ⟨v, hshape, hnorm⟩ := s.exists_shape_eq orientation
  rw [hshape]
  exact Shape.dot_normalized (by rw [hnorm]; exact h)

theorem dot_shape_le {s : Stroke} (h : s.extent ≤ 1e-12)
    (orientation : Option Orientation) :
    dot (s.shape orientation : List ℝ) (s.shape orientation) ≤ 1e-12 ^ 2 := by
  obtain ⟨v, hshape, hnorm⟩ := s.exists_shape_eq orientation
  rw [hshape, Shape.normalized_of_le (by rw [hnorm]; exact h), ← Shape.norm_sq, hnorm]
  have hpos : 0 ≤ s.extent := by
    rw [← hnorm, Shape.norm_eq]
    exact Real.sqrt_nonneg _
  exact pow_le_pow_left₀ hpos h 2

/-- No shape is longer than one. -/
theorem dot_shape_le_one (s : Stroke) (orientation : Option Orientation) :
    dot (s.shape orientation : List ℝ) (s.shape orientation) ≤ 1 := by
  by_cases h : 1e-12 < s.extent
  · exact (dot_shape h orientation).le
  · refine (dot_shape_le (not_lt.mp h) orientation).trans ?_
    norm_num

end Stroke

/-! ### Taps -/

/-- Samples that are all in one place do not extend from it. -/
theorem Shape.norm_centered_replicate {n : Nat} (hn : n ≠ 0) (p : Vec ℝ) :
    norm (flattened (centered (List.replicate n p))) = 0 := by
  have hcast : (n : ℝ) ≠ 0 := Nat.cast_ne_zero.mpr hn
  have hmean : ∀ x : ℝ, Scalar.sum (List.replicate n x) / Scalar.ofInt n = x := by
    intro x
    rw [Scalar.sum_eq, List.sum_replicate, nsmul_eq_mul]
    show (n : ℝ) * x / ((n : ℤ) : ℝ) = x
    rw [Int.cast_natCast, mul_div_assoc, mul_div_cancel₀ _ hcast]
  have hcentroid : centroid (List.replicate n p) = p := by
    unfold centroid
    dsimp only
    rw [List.map_replicate, List.map_replicate, List.length_replicate, hmean, hmean]
  have horigin : Space.sub p p = (⟨0, 0⟩ : Vec ℝ) := by
    show (⟨p.x - p.x, p.y - p.y⟩ : Vec ℝ) = _
    rw [sub_self, sub_self]
  have hzero : ∀ k : Nat, dot (flattened (List.replicate k (⟨0, 0⟩ : Vec ℝ)))
      (flattened (List.replicate k ⟨0, 0⟩)) = 0 := by
    intro k
    induction k with
    | zero => exact Learner.dot_nil_left _
    | succ k ih =>
        have hcons : flattened (List.replicate (k + 1) (⟨0, 0⟩ : Vec ℝ))
            = 0 :: 0 :: flattened (List.replicate k ⟨0, 0⟩) := rfl
        rw [hcons, Learner.dot_cons, Learner.dot_cons, ih]
        norm_num
  rw [centered, hcentroid, List.map_replicate, horigin, norm_eq, hzero, Real.sqrt_zero]

/-- **A tap has no extent.** -/
theorem Stroke.extent_of_single {s : Stroke} {p : Point} (h : s.points = [p]) : s.extent = 0 := by
  unfold extent path
  rw [h]
  exact Shape.norm_centered_replicate (by decide) _

/-! ### Distances -/

namespace Learner

theorem angle_eq (v w : List ℝ) : angle v w = Real.arccos (max (-1) (min 1 (dot v w))) := by
  show Real.arccos (Scalar.greater (-Scalar.one) (Scalar.lesser Scalar.one (dot v w))) = _
  rw [Scalar.greater_eq, Scalar.lesser_eq, Scalar.one_eq]

theorem angle_self {v : List ℝ} (h : dot v v = 1) : angle v v = 0 := by
  rw [angle_eq, h]
  norm_num

theorem straightDistance_self (v : List ℝ) : straightDistance v v = 0 := by
  have hzero : dot (List.zipWith (· - ·) v v) (List.zipWith (· - ·) v v) = 0 := by
    induction v with
    | nil => simp
    | cons a v ih =>
        rw [List.zipWith_cons_cons, dot_cons, ih]
        show (a - a) * (a - a) + 0 = 0
        ring
  rw [straightDistance, Shape.norm_eq, hzero, Real.sqrt_zero]

/-- The angle between vectors whose product is small. -/
theorem one_lt_angle {v w : List ℝ} (h : dot v w ≤ 1 / 2) : 1 < angle v w := by
  rw [angle_eq, ← not_le]
  intro hle
  have hcos : 1 / 2 < Real.cos 1 := by
    have hbound := Real.one_sub_sq_div_two_lt_cos (one_ne_zero : (1 : ℝ) ≠ 0)
    norm_num at hbound
    exact hbound
  have hmono := Real.cos_le_cos_of_nonneg_of_le_pi (Real.arccos_nonneg _)
    (by linarith [Real.pi_gt_three]) hle
  have hmin : min 1 (dot v w) = dot v w := min_eq_right (by linarith)
  rw [Real.cos_arccos (le_max_left _ _) (max_le (by norm_num) (min_le_left _ _)), hmin] at hmono
  have hmax : max (-1) (dot v w) ≤ 1 / 2 := max_le (by norm_num) h
  linarith

/-- **What does not extend far enough is far from every shape.** -/
theorem one_lt_angle_shape {s t : Stroke} (h : s.extent ≤ 1e-12)
    (orientation : Option Orientation) :
    (1 : ℝ) < angle (s.shape orientation) (t.shape orientation) := by
  refine one_lt_angle ?_
  have hshort := Stroke.dot_shape_le h orientation
  have hlong := t.dot_shape_le_one orientation
  have hproduct := two_mul_dot_le (by norm_num : (0 : ℝ) < 2) (s.shape orientation : List ℝ)
    (t.shape orientation)
  norm_num at hshort
  linarith

/-! ### Weights -/

theorem leastDistance_eq : (leastDistance : ℝ) = 1e-6 := by
  show ((1 : ℕ) : ℝ) / 10 ^ 6 = _
  norm_num

theorem weight_eq (d : ℝ) : weight d = 1 / max d 1e-6 := by
  rw [weight, Scalar.greater_eq, leastDistance_eq, Scalar.one_eq]

theorem weight_le (d : ℝ) : weight d ≤ 10 ^ 6 := by
  rw [weight_eq]
  have hbound : 1 / max d 1e-6 ≤ 1 / (1e-6 : ℝ) :=
    one_div_le_one_div_of_le (by norm_num) (le_max_right _ _)
  norm_num at hbound ⊢
  exact hbound

/-- **What weighs most is what is nearer than can be told apart.** -/
theorem weight_eq_most_iff {d : ℝ} : weight d = 10 ^ 6 ↔ d ≤ 1e-6 := by
  rw [weight_eq]
  refine ⟨?_, ?_⟩
  · intro h
    have hpos : (0 : ℝ) < max d 1e-6 := lt_max_of_lt_right (by norm_num)
    rw [div_eq_iff hpos.ne'] at h
    have hle := le_max_left d (1e-6 : ℝ)
    linarith
  · intro h
    rw [max_eq_right h]
    norm_num

theorem weight_lt_one {d : ℝ} (h : 1 < d) : weight d < 1 := by
  rw [weight_eq, max_eq_left (by linarith), div_lt_one (by linarith)]
  exact h

end Learner
end GestureStore
