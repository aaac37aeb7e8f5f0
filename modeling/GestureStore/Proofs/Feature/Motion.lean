/-
Paths that are moved.

A motion turns the plane about the origin and then shifts it.  It takes the way from one
point to another to a way of the same length (`norm_way`), whatever the shift.  So all that
resampling compares and divides by is what it was before: the same piece is found for each
distance, and it is divided in the same proportion.  Stage by stage the moved path gives
the moved result, up to the samples (`resample_move`).

A centroid moves along with its points, so what is left of a motion once the samples are
centred is the turn alone (`centered_move`).  So whatever becomes of the vector of a path
that is moved, it is settled by what the turn does to its samples (`sampled_move`).
-/
import GestureStore.Proofs.Feature.Shape

namespace GestureStore

/-- A motion of the plane: a turn about the origin, and then a shift. -/
structure Motion where
  /-- The cosine of the turn. -/
  cos : ℝ
  /-- The sine of the turn. -/
  sin : ℝ
  /-- There is an angle that has them. -/
  circle : cos ^ 2 + sin ^ 2 = 1
  /-- The shift. -/
  shift : Vec ℝ

namespace Motion

/-- What becomes of the way from one point to another. -/
noncomputable def way (m : Motion) : Vec ℝ → Vec ℝ := Shape.turned m.cos m.sin

/-- What becomes of a point. -/
noncomputable def move (m : Motion) (p : Vec ℝ) : Vec ℝ := Space.add (m.way p) m.shift

variable (m : Motion)

theorem way_eq (v : Vec ℝ) :
    m.way v = ⟨v.x * m.cos + v.y * -m.sin, v.x * m.sin + v.y * m.cos⟩ := rfl

theorem move_eq (p : Vec ℝ) : m.move p = ⟨(m.way p).x + m.shift.x, (m.way p).y + m.shift.y⟩ := rfl

theorem sub_move (a b : Vec ℝ) :
    Space.sub (m.move b) (m.move a) = m.way (Space.sub b a) := by
  rw [Vec.sub_eq, Vec.sub_eq, move_eq, move_eq, way_eq, way_eq, way_eq, Vec.mk.injEq]
  constructor
  · ring
  · ring

theorem add_move (a v : Vec ℝ) (t : ℝ) :
    Space.add (m.move a) (Space.scale t (m.way v)) = m.move (Space.add a (Space.scale t v)) := by
  rw [Vec.add_eq, Vec.add_eq, Vec.scale_eq, Vec.scale_eq, move_eq, move_eq, way_eq, way_eq, way_eq,
    Vec.mk.injEq]
  constructor
  · ring
  · ring

/-- **A way keeps its length.** -/
theorem norm_way (v : Vec ℝ) : Space.norm (m.way v) = Space.norm v := by
  rw [Vec.norm_eq, Vec.norm_eq, way_eq]
  congr 1
  calc _ = (v.x * v.x + v.y * v.y) * (m.cos ^ 2 + m.sin ^ 2) := by ring
    _ = v.x * v.x + v.y * v.y := by rw [m.circle, mul_one]

end Motion

/-! ### Samples -/

namespace Path

variable (m : Motion)

/-- What becomes of a piece of a path. -/
noncomputable def Segment.moved (s : Segment (Vec ℝ) ℝ) : Segment (Vec ℝ) ℝ :=
  { s with start := m.move s.start, step := m.way s.step }

theorem segmentsFrom_move (start : Vec ℝ) (before : ℝ) (rest : List (Vec ℝ)) :
    segmentsFrom (m.move start) before (rest.map m.move)
      = (segmentsFrom start before rest).map (Segment.moved m) := by
  induction rest generalizing start before with
  | nil => rfl
  | cons next rest ih =>
      rw [List.map_cons]
      unfold segmentsFrom
      dsimp only
      rw [m.sub_move, m.norm_way, ih, List.map_cons]
      rfl

theorem lengthFrom_moved (before : ℝ) (segments : List (Segment (Vec ℝ) ℝ)) :
    lengthFrom before (segments.map (Segment.moved m)) = lengthFrom before segments := by
  induction segments generalizing before with
  | nil => rfl
  | cons s rest ih =>
      rw [List.map_cons]
      unfold lengthFrom
      exact ih _

theorem segmentAt_moved (d : ℝ) (s : Segment (Vec ℝ) ℝ) (later : List (Segment (Vec ℝ) ℝ)) :
    segmentAt d (s.moved m) (later.map (Segment.moved m)) = (segmentAt d s later).moved m := by
  induction later generalizing s with
  | nil => rfl
  | cons r later ih =>
      rw [List.map_cons]
      unfold segmentAt
      by_cases h : Scalar.lt d r.before = true
      · rw [if_pos h]
        exact if_pos h
      · rw [if_neg h, ← ih]
        exact if_neg h

theorem pointAt_moved (d : ℝ) (s : Segment (Vec ℝ) ℝ) :
    pointAt d (s.moved m) = m.move (pointAt d s) :=
  m.add_move s.start s.step _

/-- **A path that is moved has moved samples.** -/
theorem resample_move (first : Vec ℝ) (rest : List (Vec ℝ)) (n : Nat) :
    resample (m.move first) (rest.map m.move) n = (resample first rest n).map m.move := by
  unfold resample
  rw [segmentsFrom_move]
  cases hs : segmentsFrom first Scalar.zero rest with
  | nil => exact List.map_replicate.symm
  | cons s later =>
      rw [List.map_cons]
      dsimp only
      rw [← List.map_cons, lengthFrom_moved]
      split
      · exact List.map_replicate.symm
      · rw [List.map_map]
        refine List.map_congr_left fun i _ => ?_
        rw [segmentAt_moved, pointAt_moved]
        rfl

end Path

/-! ### Vectors -/

namespace Shape

variable (m : Motion)

theorem centroid_move {points : List (Vec ℝ)} (h : points ≠ []) :
    centroid (points.map m.move) = m.move (centroid points) := by
  have hcount : (Scalar.ofInt points.length : ℝ) ≠ 0 := by
    show ((points.length : ℤ) : ℝ) ≠ 0
    rw [Int.cast_natCast, Nat.cast_ne_zero, Ne, List.length_eq_zero_iff]
    exact h
  have hmean : ∀ a b e : ℝ,
      Scalar.sum (points.map fun p => p.x * a + p.y * b + e) / Scalar.ofInt points.length
        = (centroid points).x * a + (centroid points).y * b + e := by
    intro a b e
    have hrest : (points.length : ℝ) * e = Scalar.ofInt points.length * e := by
      show _ = ((points.length : ℤ) : ℝ) * e
      rw [Int.cast_natCast]
    rw [Scalar.sum_eq, List.sum_map_add, List.sum_map_add, List.sum_map_mul_right,
      List.sum_map_mul_right, List.map_const', List.sum_replicate, nsmul_eq_mul, hrest, centroid,
      Scalar.sum_eq, Scalar.sum_eq]
    field_simp
  rw [centroid, List.map_map, List.map_map, List.length_map, m.move_eq, m.way_eq, Vec.mk.injEq]
  exact ⟨hmean _ _ _, hmean _ _ _⟩

/-- **Of a motion, only the turn is left once the samples are centred.** -/
theorem centered_move (points : List (Vec ℝ)) :
    centered (points.map m.move) = (centered points).map m.way := by
  by_cases h : points = []
  · rw [h]
    rfl
  · rw [centered, centered, centroid_move m h, List.map_map, List.map_map]
    exact List.map_congr_left fun p _ => m.sub_move _ _

/-- A path that is moved has the vector of its moved samples. -/
theorem sampled_move (orientation : Option Orientation) {n : Nat} (hn : 1 ≤ n) (first : Vec ℝ)
    (rest : List (Vec ℝ)) :
    sampled orientation (((first :: rest).map m.move).map Row.ofVec) (some n)
      = .ok (ofSamples orientation ((Path.resample first rest n).map m.move)) := by
  rw [List.map_cons, sampled_eq orientation hn, features, Path.resample_move]

end Shape
end GestureStore
