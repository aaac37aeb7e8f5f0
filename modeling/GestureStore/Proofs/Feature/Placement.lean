/-
Where a gesture is drawn, and how large, over exact numbers.

Drawing in another place and at another size keeps the order of coordinates, so the corners
of the box around the points go along with them (`lowest_drawnAt`, `highest_drawnAt`), and
the box extends as much farther as the drawing is larger.  The frame divides by that again.
So every point has the place on the grid that it had before (`place_drawnAt`), and whatever
follows is the same.

A box of hardly any extent is not fitted to the grid but put in its middle.  That is the
one thing that a size may change, so it is asked that both drawings are fitted, or neither
is.  For shapes there is no such condition, since a shift does not change a length.
-/
import GestureStore.Proofs.Feature.Motion
import GestureStore.Proofs.Feature.Raster

namespace GestureStore

/-- A point of a drawing that is `k` times as large, and in another place. -/
noncomputable def Vec.drawnAt (k : ℝ) (v p : Vec ℝ) : Vec ℝ := Space.add (Space.scale k p) v

theorem Vec.drawnAt_eq (k : ℝ) (v p : Vec ℝ) : drawnAt k v p = ⟨k * p.x + v.x, k * p.y + v.y⟩ := rfl

/-! ### Rasters -/

namespace Raster

/-- How far the points of several paths extend. -/
noncomputable def span (paths : List (List (Vec ℝ))) : ℝ :=
  match paths.flatten with
  | [] => 0
  | first :: rest => extent first rest

section Frames

variable {k : ℝ} (hk : 0 < k) (v first : Vec ℝ) (rest : List (Vec ℝ))

include hk

theorem lowest_drawnAt :
    lowest (Vec.drawnAt k v first) (rest.map (Vec.drawnAt k v))
      = Vec.drawnAt k v (lowest first rest) := by
  unfold lowest
  rw [List.foldl_map]
  refine List.foldl_hom _ fun m p => ?_
  simp only [Vec.drawnAt_eq, Scalar.lesser_eq, mul_min_of_nonneg _ _ hk.le, min_add_add_right]

theorem highest_drawnAt :
    highest (Vec.drawnAt k v first) (rest.map (Vec.drawnAt k v))
      = Vec.drawnAt k v (highest first rest) := by
  unfold highest
  rw [List.foldl_map]
  refine List.foldl_hom _ fun m p => ?_
  simp only [Vec.drawnAt_eq, Scalar.greater_eq, mul_max_of_nonneg _ _ hk.le, max_add_add_right]

theorem extent_drawnAt :
    extent (Vec.drawnAt k v first) (rest.map (Vec.drawnAt k v)) = k * extent first rest := by
  have hdiff : ∀ h l e : ℝ, k * h + e - (k * l + e) = k * (h - l) := by
    intro h l e
    ring
  rw [extent, extent, lowest_drawnAt hk, highest_drawnAt hk, Vec.drawnAt_eq, Vec.drawnAt_eq,
    mul_max_of_nonneg _ _ hk.le]
  dsimp only
  rw [hdiff, hdiff]

/-- **A point keeps its place on the grid** if the box is fitted before and after, or neither time. -/
theorem place_drawnAt (h : 1e-8 < extent first rest ↔ 1e-8 < k * extent first rest) (size : Nat)
    (p : Vec ℝ) :
    (Frame.around size (Vec.drawnAt k v first) (rest.map (Vec.drawnAt k v))).place
        (Vec.drawnAt k v p)
      = (Frame.around size first rest).place p := by
  rw [Frame.place_around, Frame.place_around, extent_drawnAt hk, lowest_drawnAt hk,
    highest_drawnAt hk]
  by_cases hfitted : 1e-8 < extent first rest
  · have hextent : extent first rest ≠ 0 := (lt_trans (by norm_num) hfitted).ne'
    have hk' : k ≠ 0 := hk.ne'
    have hcoordinate : ∀ p l h e : ℝ,
        (k * p + e - (k * l + e + (k * h + e)) / 2) * (((size : ℝ) - 1) / (k * extent first rest))
          = (p - (l + h) / 2) * (((size : ℝ) - 1) / extent first rest) := by
      intro p l h e
      field_simp
      ring
    rw [if_pos hfitted, if_pos (h.mp hfitted)]
    simp only [Vec.drawnAt_eq, hcoordinate]
  · rw [if_neg hfitted, if_neg (mt h.mpr hfitted)]
    simp only [mul_zero]

end Frames

section Drawings

variable {k : ℝ} (hk : 0 < k) (v : Vec ℝ) (paths : List (List (Vec ℝ)))

theorem flatten_drawnAt :
    (paths.map (List.map (Vec.drawnAt k v))).flatten = paths.flatten.map (Vec.drawnAt k v) :=
  List.map_flatten.symm

include hk

theorem span_drawnAt : span (paths.map (List.map (Vec.drawnAt k v))) = k * span paths := by
  unfold span
  rw [flatten_drawnAt]
  cases paths.flatten with
  | nil => exact (mul_zero k).symm
  | cons first rest => exact extent_drawnAt hk v first rest

/-- **The same samples are laid**, however segments are measured. -/
theorem laid_drawnAt (h : 1e-8 < span paths ↔ 1e-8 < k * span paths)
    (measure : Vec ℝ → Vec ℝ → ℝ) (size : Nat) :
    laid measure size (paths.map (List.map (Vec.drawnAt k v))) = laid measure size paths := by
  cases hpaths : paths.flatten with
  | nil =>
      have hdrawn := flatten_drawnAt (k := k) v paths
      rw [hpaths] at hdrawn
      unfold laid
      rw [hpaths, hdrawn]
      rfl
  | cons first rest =>
      have hdrawn := flatten_drawnAt (k := k) v paths
      rw [hpaths] at hdrawn
      have hspan : span paths = extent first rest := by
        unfold span
        rw [hpaths]
      rw [hspan] at h
      rw [laid_eq hpaths, laid_eq hdrawn, List.flatMap_map]
      simp only [List.map_map, Function.comp_def, place_drawnAt hk v first rest h]

end Drawings

end Raster

/-! ### Shapes -/

/-- A shift, without any turn. -/
noncomputable def Motion.shiftBy (v : Vec ℝ) : Motion where
  cos := 1
  sin := 0
  circle := by norm_num
  shift := v

theorem Motion.way_shiftBy (v : Vec ℝ) : (shiftBy v).way = id := by
  funext p
  rw [way_eq, shiftBy, neg_zero, mul_zero, mul_zero, mul_one, mul_one, add_zero, zero_add]
  rfl

theorem Motion.move_shiftBy (v : Vec ℝ) : (shiftBy v).move = fun p => Space.add p v := by
  funext p
  rw [move, way_shiftBy]
  rfl

/-- **A shift does not show in the vector of a path.** -/
theorem Shape.sampled_shifted (orientation : Option Orientation) {n : Nat} (hn : 1 ≤ n)
    (v first : Vec ℝ) (rest : List (Vec ℝ)) :
    sampled orientation (((first :: rest).map fun p => Space.add p v).map Row.ofVec) (some n)
      = .ok (features orientation n first rest) := by
  rw [← Motion.move_shiftBy, sampled_move _ _ hn, features, ofSamples, ofSamples, centered_move,
    Motion.way_shiftBy, List.map_id]

/-! ### Both -/

open Raster Shape in
/--
**Features do not depend on where a gesture is drawn, and rasters not on how large.**

Let there be a path to draw, and a cell to draw it in.  If all paths are drawn `k` times as
large and moved by `v`, the raster stays what it was, unless there is hardly any extent to
fit to the grid before or after; and in the same size it always stays.  A path that is moved
by `v` has the vector it had, if there is a sample to take, whatever its orientation is for.
-/
theorem features_ignore_place_and_size :
    (∀ (paths : List (List (Vec ℝ))) (size : Nat) (k : ℝ) (v : Vec ℝ),
      paths ≠ [] → size ≠ 0 → 0 < k →
      let drawn := paths.map (List.map fun p => Space.add (Space.scale k p) v)
      (1e-8 < span paths ∧ 1e-8 < span drawn) ∨ k = 1 →
      ∃ cells, rasterized (some size) paths = .ok cells ∧
        rasterized (some size) drawn = .ok cells) ∧
    ∀ (orientation : Option Orientation) (n : Nat) (v first : Vec ℝ) (rest : List (Vec ℝ)),
      1 ≤ n →
      let path := first :: rest
      let moved := path.map fun p => Space.add p v
      ∃ vector, sampled orientation (path.map Row.ofVec) (some n) = .ok vector ∧
        sampled orientation (moved.map Row.ofVec) (some n) = .ok vector := by
  constructor
  · intro paths size k v hpaths hsize hk drawn hspan
    have hdrawn : drawn ≠ [] := mt List.map_eq_nil_iff.mp hpaths
    have hfitted : 1e-8 < span paths ↔ 1e-8 < k * span paths := by
      rcases hspan with ⟨hbefore, hafter⟩ | rfl
      · exact iff_of_true hbefore (span_drawnAt hk v paths ▸ hafter)
      · rw [one_mul]
    have hcells : features size drawn = features size paths := by
      show cells straight size drawn = cells straight size paths
      rw [cells_eq, cells_eq, ← laid_drawnAt hk v paths hfitted]
      rfl
    exact ⟨_, rasterized_eq hpaths hsize, by rw [rasterized_eq hdrawn hsize, hcells]⟩
  · intro orientation n v first rest hn path moved
    exact ⟨_, sampled_eq orientation hn first rest, sampled_shifted orientation hn v first rest⟩

open Raster Shape in
/-- A line that is twice as long and somewhere else fills the cells that it filled before. -/
theorem longer_line_has_the_same_raster :
    let line : List (Vec ℝ) := [⟨0, 0⟩, ⟨1, 0⟩]
    let drawn := line.map fun p => Space.add (Space.scale (2 : ℝ) p) ⟨3, 4⟩
    let moved := line.map fun p => Space.add p (⟨3, 4⟩ : Vec ℝ)
    (1e-8 < span [line] ∧ 1e-8 < span [drawn]) ∧
      (∃ cells, rasterized (some 16) [line] = .ok cells ∧ rasterized (some 16) [drawn] = .ok cells) ∧
      ∃ vector, sampled (some .invariant) (line.map Row.ofVec) (some 16) = .ok vector ∧
        sampled (some .invariant) (moved.map Row.ofVec) (some 16) = .ok vector := by
  intro line drawn moved
  have hline : span [line] = 1 := by
    simp [span, line, extent, highest, lowest, Scalar.greater_eq, Scalar.lesser_eq]
  have hdrawn : span [drawn] = 2 * span [line] := span_drawnAt two_pos ⟨3, 4⟩ [line]
  have hspan : 1e-8 < span [line] ∧ 1e-8 < span [drawn] := by
    rw [hdrawn, hline]
    norm_num
  obtain ⟨hraster, hshape⟩ := features_ignore_place_and_size
  exact ⟨hspan, hraster [line] 16 2 ⟨3, 4⟩ (List.cons_ne_nil _ _) (by decide) two_pos (.inl hspan),
    hshape (some .invariant) 16 ⟨3, 4⟩ ⟨0, 0⟩ [⟨1, 0⟩] (by decide)⟩

end GestureStore
