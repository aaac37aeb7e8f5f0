/-
Shapes of paths that are turned, over exact numbers.

Turning about any centre turns the centred samples about the origin, so all that is left
to see is whether straightening undoes that.  It takes each sample to its product with the
first one and to their cross product, over the length of the first (`straightened_eq`).
Neither product changes when both are turned, so the straightened samples are the same.

A first sample in the centroid has no direction and no length to divide by.  Its angle
counts as zero and nothing is turned (`straightened_origin`), neither before the path was
turned nor after, so the turn shows in the vector: unless it is none at all, or all samples
are in the centroid with the first.
-/
import GestureStore.Proofs.Feature.Motion

namespace GestureStore

/-- A point turned about a centre. -/
noncomputable def Vec.turnedAbout (angle : ℝ) (center p : Vec ℝ) : Vec ℝ :=
  Space.add center (Shape.turned (Real.cos angle) (Real.sin angle) (Space.sub p center))

/-- The turn about a centre. -/
noncomputable def Motion.about (angle : ℝ) (center : Vec ℝ) : Motion where
  cos := Real.cos angle
  sin := Real.sin angle
  circle := Real.cos_sq_add_sin_sq angle
  shift := Space.sub center (Shape.turned (Real.cos angle) (Real.sin angle) center)

theorem Motion.move_about (angle : ℝ) (center : Vec ℝ) :
    (about angle center).move = Vec.turnedAbout angle center := by
  funext p
  rw [move_eq, way_eq, Vec.turnedAbout, about, Vec.add_eq, Vec.sub_eq, Vec.sub_eq, Shape.turned,
    Shape.turned, Vec.mk.injEq]
  constructor
  · ring
  · ring

/-- A turn leaves a point where it is only if it turns nothing, or about that point. -/
theorem Motion.way_eq_self_iff (m : Motion) (v : Vec ℝ) : m.way v = v ↔ m.cos = 1 ∨ v = ⟨0, 0⟩ := by
  obtain ⟨x, y⟩ := v
  have hcircle := m.circle
  rw [way_eq, Vec.mk.injEq, Vec.mk.injEq]
  dsimp only
  constructor
  · rintro ⟨hx, hy⟩
    by_cases hcos : m.cos = 1
    · exact .inl hcos
    · right
      have hsum : (1 - m.cos) * (x * x + y * y) = 0 := by
        linear_combination (-x) * hx + (-y) * hy
      have hzero := (mul_eq_zero.mp hsum).resolve_left (sub_ne_zero.mpr (Ne.symm hcos))
      exact mul_self_add_mul_self_eq_zero.mp hzero
  · rintro (hcos | ⟨rfl, rfl⟩)
    · have hsin : m.sin = 0 := by
        rw [hcos] at hcircle
        simpa using hcircle
      rw [hcos, hsin]
      constructor <;> ring
    · constructor <;> ring

namespace Shape

/-! ### Straightening -/

/-- What is left of a point are its two products with the first, over the length of that. -/
theorem straightened_eq {first : Vec ℝ} (h : first ≠ ⟨0, 0⟩) (rest : List (Vec ℝ)) :
    straightened (first :: rest) = (first :: rest).map fun p =>
      ⟨(p.x * first.x + p.y * first.y) / Space.norm first,
        (p.y * first.x - p.x * first.y) / Space.norm first⟩ := by
  have hne : (⟨first.x, first.y⟩ : ℂ) ≠ 0 := by
    intro hzero
    refine h ?_
    cases first
    rw [Vec.mk.injEq]
    exact ⟨congrArg Complex.re hzero, congrArg Complex.im hzero⟩
  have hnorm : ‖(⟨first.x, first.y⟩ : ℂ)‖ = Space.norm first := by
    rw [Complex.norm_eq_sqrt_sq_add_sq, sq, sq]
    rfl
  have hcos : Scalar.cos (-Scalar.atan2 first.y first.x) = first.x / Space.norm first := by
    show Real.cos (-Complex.arg ⟨first.x, first.y⟩) = _
    rw [Real.cos_neg, Complex.cos_arg hne, hnorm]
  have hsin : Scalar.sin (-Scalar.atan2 first.y first.x) = -(first.y / Space.norm first) := by
    show Real.sin (-Complex.arg ⟨first.x, first.y⟩) = _
    rw [Real.sin_neg, Complex.sin_arg, hnorm]
  rw [straightened, hcos, hsin]
  refine List.map_congr_left fun p _ => ?_
  rw [turned, Vec.mk.injEq]
  constructor
  · ring
  · ring

/-- **Straightening undoes a turn.** -/
theorem straightened_way (m : Motion) {first : Vec ℝ} (h : first ≠ ⟨0, 0⟩) (rest : List (Vec ℝ)) :
    straightened ((first :: rest).map m.way) = straightened (first :: rest) := by
  have hcircle := m.circle
  have hfirst : m.way first ≠ ⟨0, 0⟩ := by
    rw [ne_eq, ← Vec.norm_eq_zero_iff, m.norm_way, Vec.norm_eq_zero_iff]
    exact h
  rw [List.map_cons, straightened_eq hfirst, ← List.map_cons, List.map_map, straightened_eq h]
  refine List.map_congr_left fun p _ => ?_
  rw [Function.comp_apply, m.norm_way, m.way_eq, m.way_eq, Vec.mk.injEq]
  constructor
  · congr 1
    linear_combination (p.x * first.x + p.y * first.y) * hcircle
  · congr 1
    linear_combination (p.y * first.x - p.x * first.y) * hcircle

/-- What begins in the origin is not turned. -/
theorem straightened_of_origin {points : List (Vec ℝ)} (h : points.head? = some ⟨0, 0⟩) :
    straightened points = points := by
  obtain ⟨rest, rfl⟩ := List.head?_eq_some_iff.mp h
  have hangle : (Scalar.atan2 0 0 : ℝ) = 0 := Complex.arg_zero
  have hcos : (Scalar.cos (-0) : ℝ) = 1 := by
    show Real.cos (-0) = 1
    rw [neg_zero, Real.cos_zero]
  have hsin : (Scalar.sin (-0) : ℝ) = 0 := by
    show Real.sin (-0) = 0
    rw [neg_zero, Real.sin_zero]
  have hturned : turned (1 : ℝ) 0 = id := by
    funext p
    rw [turned, neg_zero, mul_one, mul_zero, add_zero, mul_zero, mul_one, zero_add]
    rfl
  rw [straightened]
  dsimp only
  rw [hangle, hcos, hsin, hturned, List.map_id]

/-! ### Vectors -/

theorem flattened_injective : Function.Injective (flattened : List (Vec ℝ) → List ℝ) := by
  intro points points' h
  induction points generalizing points' with
  | nil =>
      cases points' with
      | nil => rfl
      | cons p' rest' => exact absurd h (List.cons_ne_nil _ _).symm
  | cons p rest ih =>
      cases points' with
      | nil => exact absurd h (List.cons_ne_nil _ _)
      | cons p' rest' =>
          obtain ⟨hx, htail⟩ := List.cons.inj h
          obtain ⟨hy, hrest⟩ := List.cons.inj htail
          cases p
          cases p'
          rw [ih hrest, List.cons.injEq, Vec.mk.injEq]
          exact ⟨⟨hx, hy⟩, rfl⟩

/-- Vectors that are equally long are scaled alike. -/
theorem normalized_inj {v w : List ℝ} (h : norm v = norm w) :
    normalized v = normalized w ↔ v = w := by
  refine ⟨?_, congrArg normalized⟩
  intro hscaled
  by_cases hlong : 1e-12 < norm v
  · have hne : norm w ≠ 0 := by
      rw [← h]
      exact (lt_trans (by positivity) hlong).ne'
    rw [normalized_of_lt hlong, normalized_of_lt (h ▸ hlong), h] at hscaled
    exact List.map_injective_iff.mpr (fun _ _ => (div_left_inj' hne).mp) hscaled
  · rwa [normalized_of_le (not_lt.mp hlong), normalized_of_le (h ▸ not_lt.mp hlong)] at hscaled

theorem norm_flattened_way (m : Motion) (points : List (Vec ℝ)) :
    norm (flattened (points.map m.way)) = norm (flattened points) := by
  rw [norm_eq, norm_eq, Motion.way, dot_flattened_turned m.circle]

theorem ofSamples_invariant (points : List (Vec ℝ)) :
    ofSamples (some .invariant) points = normalized (flattened (straightened (centered points))) :=
  rfl

/-- Where the first sample is the centroid, there is nothing to turn by. -/
theorem ofSamples_of_centroid {points : List (Vec ℝ)} (h : points.head? = some (centroid points)) :
    ofSamples (some .invariant) points = normalized (flattened (centered points)) := by
  have hhead : (centered points).head? = some ⟨0, 0⟩ := by
    rw [centered, List.head?_map, h, Option.map_some, Vec.sub_eq_zero_iff.mpr rfl]
  rw [ofSamples_invariant, straightened_of_origin hhead]

theorem head?_move (m : Motion) {points : List (Vec ℝ)}
    (h : points.head? = some (centroid points)) :
    (points.map m.move).head? = some (centroid (points.map m.move)) := by
  obtain ⟨rest, hpoints⟩ := List.head?_eq_some_iff.mp h
  have hne : points ≠ [] := by
    rw [hpoints]
    exact List.cons_ne_nil _ _
  rw [List.head?_map, h, Option.map_some, centroid_move m hne]

/-- **A motion shows only where the first sample is the centroid, and others are not.** -/
theorem ofSamples_move_iff (m : Motion) {points : List (Vec ℝ)} (h : points ≠ []) :
    ofSamples (some .invariant) (points.map m.move) = ofSamples (some .invariant) points ↔
      points.head? ≠ some (centroid points) ∨ m.cos = 1 ∨ ∀ p ∈ points, p = centroid points := by
  by_cases hfirst : points.head? = some (centroid points)
  · have hself : (centered points).map m.way = centered points ↔
        ∀ p ∈ centered points, m.way p = p := by
      simpa using List.map_inj_left (f := m.way) (g := id) (l := centered points)
    rw [ofSamples_of_centroid hfirst, ofSamples_of_centroid (head?_move m hfirst), centered_move,
      normalized_inj (norm_flattened_way m _), flattened_injective.eq_iff, hself,
      or_iff_right (not_not.mpr hfirst), centered, List.forall_mem_map]
    simp only [m.way_eq_self_iff, Vec.sub_eq_zero_iff]
    by_cases hcos : m.cos = 1
    · exact iff_of_true (fun _ _ => .inl hcos) (.inl hcos)
    · simp only [or_iff_right hcos]
  · refine iff_of_true ?_ (.inl hfirst)
    obtain ⟨first, rest, rfl⟩ := List.exists_cons_of_ne_nil h
    have hne : Space.sub first (centroid (first :: rest)) ≠ ⟨0, 0⟩ := by
      rw [ne_eq, Vec.sub_eq_zero_iff]
      rwa [List.head?_cons, Option.some.injEq] at hfirst
    rw [ofSamples_invariant, ofSamples_invariant, centered_move, centered, List.map_cons,
      straightened_way m hne]

/-- The vector of a path that is turned about a centre. -/
theorem sampled_turnedAbout (orientation : Option Orientation) {n : Nat} (hn : 1 ≤ n) (angle : ℝ)
    (center first : Vec ℝ) (rest : List (Vec ℝ)) :
    sampled orientation (((first :: rest).map (Vec.turnedAbout angle center)).map Row.ofVec)
        (some n)
      = .ok (ofSamples orientation
          ((Path.resample first rest n).map (Motion.about angle center).move)) := by
  rw [← Motion.move_about, sampled_move _ _ hn]

end Shape

/-! ### Turned paths -/

open Shape in
/--
**A rotation is forgotten exactly if the first sample is off the centroid.**

Where there is a point and a sample to take, a path has a vector, and so has the path that
is turned by any angle about any centre.  The two are the same if the first sample is not
the centroid of the samples.  If it is, then nothing is turned back and both are the vectors
that a sensitive orientation has; they only agree if there is nothing to see of the turn.
-/
theorem rotation_is_forgotten_off_the_centroid (angle : ℝ) (center first : Vec ℝ)
    (rest : List (Vec ℝ)) {n : Nat} (hn : 1 ≤ n) :
    let path := first :: rest
    let turned := path.map (Vec.turnedAbout angle center)
    let samples := Path.resample first rest n
    ∃ v v' : List ℝ,
      sampled (some .invariant) (path.map Row.ofVec) (some n) = .ok v ∧
      sampled (some .invariant) (turned.map Row.ofVec) (some n) = .ok v' ∧
      (samples.head? ≠ some (centroid samples) → v' = v) ∧
      (samples.head? = some (centroid samples) →
        sampled (some .sensitive) (path.map Row.ofVec) (some n) = .ok v ∧
        sampled (some .sensitive) (turned.map Row.ofVec) (some n) = .ok v' ∧
        (v' = v ↔ Real.cos angle = 1 ∨ ∀ p ∈ samples, p = centroid samples)) := by
  intro path turned samples
  have hsamples : samples ≠ [] := by
    rw [← List.length_pos_iff, Path.length_resample]
    exact hn
  have hturned := sampled_turnedAbout (some .invariant) hn angle center first rest
  have hforgotten := ofSamples_move_iff (Motion.about angle center) hsamples
  refine ⟨_, _, sampled_eq _ hn first rest, hturned, ?_, ?_⟩
  · intro hoff
    exact hforgotten.mpr (.inl hoff)
  · intro hat
    refine ⟨?_, ?_, ?_⟩
    · rw [sampled_eq _ hn, features, features, ofSamples_of_centroid hat]
      rfl
    · rw [sampled_turnedAbout _ hn, ofSamples_of_centroid (head?_move _ hat)]
      rfl
    · rw [or_iff_right (not_not.mpr hat)] at hforgotten
      exact hforgotten

open Shape in
/-- Half a loop may be turned by any angle about any centre. -/
theorem turned_half_loop_is_the_same :
    let path : List (Vec ℝ) := [⟨0, 0⟩, ⟨1, 0⟩, ⟨1 / 2, 0⟩]
    1 ≤ 2 ∧ ∀ (angle : ℝ) (center : Vec ℝ),
      sampled (some .invariant) ((path.map (Vec.turnedAbout angle center)).map Row.ofVec) (some 2)
        = sampled (some .invariant) (path.map Row.ofVec) (some 2) := by
  intro path
  refine ⟨by decide, ?_⟩
  intro angle center
  obtain ⟨v, v', hv, hv', hoff, -⟩ := rotation_is_forgotten_off_the_centroid angle center ⟨0, 0⟩
    [⟨1, 0⟩, ⟨1 / 2, 0⟩] (n := 2) (by decide)
  refine hv'.trans ((congrArg Except.ok (hoff ?_)).trans hv.symm)
  rw [Path.resample_loop le_rfl, centroid_of_loop, List.head?_cons, ne_eq, Option.some.injEq,
    Vec.mk.injEq]
  norm_num

/-- A path that passes the place where it began, so that its samples lie around that place. -/
theorem Path.resample_around :
    resample (⟨0, 0⟩ : Vec ℝ) [⟨3, 0⟩, ⟨-2, 0⟩] 3 = [⟨0, 0⟩, ⟨2, 0⟩, ⟨-2, 0⟩] := by
  have hlengths : lengths [(⟨0, 0⟩ : Vec ℝ), ⟨3, 0⟩, ⟨-2, 0⟩] = [3, 5] := by
    rw [lengths_cons, lengths_cons, Vec.norm_sub_level, Vec.norm_sub_level, lengths]
    norm_num
  have htotal : total [(⟨0, 0⟩ : Vec ℝ), ⟨3, 0⟩, ⟨-2, 0⟩] = 8 := by
    rw [total, hlengths]
    norm_num
  have hlong : leastLength ≤ total [(⟨0, 0⟩ : Vec ℝ), ⟨3, 0⟩, ⟨-2, 0⟩] := by
    rw [htotal, leastLength_eq]
    norm_num
  have hpiece : leastLength ≤ (lengths [(⟨0, 0⟩ : Vec ℝ), ⟨3, 0⟩, ⟨-2, 0⟩]).getD 1 0 := by
    rw [hlengths, leastLength_eq]
    norm_num
  have hbefore : lengthTo [(⟨0, 0⟩ : Vec ℝ), ⟨3, 0⟩, ⟨-2, 0⟩] 1 = 3 := by
    rw [lengthTo, hlengths]
    norm_num
  have hhalf : target (total [(⟨0, 0⟩ : Vec ℝ), ⟨3, 0⟩, ⟨-2, 0⟩]) 3 1 = 4 := by
    rw [htotal, target_eq _ (by decide)]
    norm_num
  have hreaches : Reaches [(⟨0, 0⟩ : Vec ℝ), ⟨3, 0⟩, ⟨-2, 0⟩] 4 1 := by
    refine ⟨?_, ?_, ?_, ?_⟩
    · rw [hlengths]
      decide
    · rw [hbefore]
      norm_num
    · rw [lengthTo_succ, hbefore, hlengths]
      norm_num
    · rw [hlengths]
      intro h
      exact absurd h (by decide)
  have hshare : share [(⟨0, 0⟩ : Vec ℝ), ⟨3, 0⟩, ⟨-2, 0⟩] 1 4 = 1 / 5 := by
    rw [share, max_eq_left hpiece, hbefore, hlengths]
    norm_num
  have hfirst := resample_first (n := 3) (by decide) hlong
  have hlast := resample_last (n := 3) (by decide) rfl rfl rfl hpiece
  have hmiddle := getElem?_resample Vec.straight (n := 3) (i := 1) (by decide) hlong (by decide)
    (hhalf.symm ▸ hreaches) rfl rfl
  rw [hhalf, hshare, Vec.along_eq] at hmiddle
  obtain ⟨p, q, r, hpqr⟩ :=
    List.length_eq_three.mp (length_resample (⟨0, 0⟩ : Vec ℝ) [⟨3, 0⟩, ⟨-2, 0⟩] 3)
  rw [hpqr] at hfirst hmiddle hlast ⊢
  rw [Option.some.inj hfirst, Option.some.inj hmiddle, Option.some.inj hlast]
  norm_num

open Shape in
/-- A turn by a right angle shows in the vector of a path with its centroid where it begins. -/
theorem rotation_shows_at_the_centroid :
    let path : List (Vec ℝ) := [⟨0, 0⟩, ⟨3, 0⟩, ⟨-2, 0⟩]
    sampled (some .invariant)
        ((path.map (Vec.turnedAbout (Real.pi / 2) ⟨0, 0⟩)).map Row.ofVec) (some 3)
      ≠ sampled (some .invariant) (path.map Row.ofVec) (some 3) := by
  intro path
  have hcentroid : centroid [(⟨0, 0⟩ : Vec ℝ), ⟨2, 0⟩, ⟨-2, 0⟩] = ⟨0, 0⟩ := by
    simp [centroid, Scalar.sum_eq]
  have hplain := sampled_eq (some .invariant) (n := 3) (by decide) ⟨0, 0⟩
    [(⟨3, 0⟩ : Vec ℝ), ⟨-2, 0⟩]
  have hturned := sampled_turnedAbout (some .invariant) (n := 3) (by decide) (Real.pi / 2) ⟨0, 0⟩
    ⟨0, 0⟩ [(⟨3, 0⟩ : Vec ℝ), ⟨-2, 0⟩]
  intro hsame
  have hvectors := Except.ok.inj (hturned.symm.trans (hsame.trans hplain))
  rw [features, Path.resample_around, ofSamples_move_iff _ (List.cons_ne_nil _ _), hcentroid]
    at hvectors
  rcases hvectors with hoff | hcos | hall
  · exact hoff rfl
  · exact absurd (Real.cos_pi_div_two.symm.trans hcos) zero_ne_one
  · have hsecond := hall ⟨2, 0⟩ (List.mem_cons_of_mem _ List.mem_cons_self)
    rw [Vec.mk.injEq] at hsecond
    norm_num at hsecond

end GestureStore
