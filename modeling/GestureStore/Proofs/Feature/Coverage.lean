/-
A raster covers what is drawn, over exact numbers.

Points are moved and scaled so that the box around them fits the square of the grid, so
they lie in the square, and so does what lies between them (`laid_mem_square`).  In the
square a sample is where it is without being moved in, and the four cells around it share
it out completely.  So no cell gets more than one, and one of the four gets a quarter or
more.

The last line of the grid needs care.  A sample on it has no cells beyond, so the line
before it counts as its lower one; its whole weight is then with the upper ones.
-/
import GestureStore.Proofs.Feature.Raster
import GestureStore.Proofs.Library.Runs

namespace GestureStore
namespace Raster

/-- The places on a grid. -/
def square (size : Nat) : Set (Vec ℝ) := Set.Icc ⟨0, 0⟩ ⟨size - 1, size - 1⟩

/-! ### Samples -/

/-- An extent is brought to the length of the grid, with its middle in the middle. -/
theorem fitted_between {c low high span last : ℝ} (hlow : low ≤ c) (hhigh : c ≤ high)
    (hspan : high - low ≤ span) (hpos : 0 < span) (hlast : 0 ≤ last) :
    0 ≤ (c - (low + high) / 2) * (last / span) + last / 2 ∧
      (c - (low + high) / 2) * (last / span) + last / 2 ≤ last := by
  have hscale : 0 ≤ last / span := by positivity
  have hwhole : span / 2 * (last / span) = last / 2 := by
    field_simp
  have hleft : -(span / 2) ≤ c - (low + high) / 2 := by linarith
  have hright : c - (low + high) / 2 ≤ span / 2 := by linarith
  have hlower := mul_le_mul_of_nonneg_right hleft hscale
  have hupper := mul_le_mul_of_nonneg_right hright hscale
  constructor
  · linarith
  · linarith

/-- Every point that a frame was made for has its place on the grid. -/
theorem place_mem_square {size : Nat} (hsize : size ≠ 0) {first p : Vec ℝ} {rest : List (Vec ℝ)}
    (h : p ∈ first :: rest) : (Frame.around size first rest).place p ∈ square size := by
  have hlast : (0 : ℝ) ≤ (size : ℝ) - 1 := by
    have hone : (1 : ℝ) ≤ size := by exact_mod_cast Nat.one_le_iff_ne_zero.mpr hsize
    linarith
  obtain ⟨hlow, hhigh⟩ := mem_corners h
  rw [Frame.place_around]
  by_cases hextent : 1e-8 < extent first rest
  · have hpos : 0 < extent first rest := lt_trans (by norm_num) hextent
    have hx := fitted_between hlow.1 hhigh.1 (le_max_left _ _) hpos hlast
    have hy := fitted_between hlow.2 hhigh.2 (le_max_right _ _) hpos hlast
    rw [if_pos hextent]
    exact ⟨⟨hx.1, hy.1⟩, ⟨hx.2, hy.2⟩⟩
  · -- What hardly extends at all is put in the middle.
    rw [if_neg hextent]
    dsimp only
    rw [mul_zero, zero_add, mul_zero, zero_add]
    exact ⟨⟨by linarith, by linarith⟩, ⟨by linarith, by linarith⟩⟩

theorem samples_mem_square {measure : Vec ℝ → Vec ℝ → ℝ} {size : Nat} {path : List (Vec ℝ)}
    (hpath : ∀ q ∈ path, q ∈ square size) {p : Vec ℝ} (h : p ∈ samples measure path) :
    p ∈ square size := by
  rcases mem_samples_iff.mp h with h | ⟨a, b, hab, -, h⟩
  · exact hpath p h
  · obtain ⟨i, hi, rfl⟩ := mem_segmentSamples_iff.mp h
    have hpos : (0 : ℝ) < steps (measure a b) := by exact_mod_cast one_le_steps (measure a b)
    have hle : (i + 1 : ℝ) ≤ steps (measure a b) := by exact_mod_cast hi
    exact Vec.along_mem_box (by positivity) ((div_le_one hpos).mpr hle)
      (hpath a (hab.subset (by simp))) (hpath b (hab.subset (by simp)))

/-- **Every sample lies on the grid.** -/
theorem laid_mem_square {measure : Vec ℝ → Vec ℝ → ℝ} {size : Nat} (hsize : size ≠ 0)
    {paths : List (List (Vec ℝ))} {p : Vec ℝ} (h : p ∈ laid measure size paths) :
    p ∈ square size := by
  cases hpaths : paths.flatten with
  | nil =>
      unfold laid at h
      rw [hpaths] at h
      cases h
  | cons first rest =>
      rw [laid_eq hpaths, List.mem_flatMap] at h
      obtain ⟨path, hpath, h⟩ := h
      refine samples_mem_square ?_ h
      intro q hq
      obtain ⟨c, hc, rfl⟩ := List.mem_map.mp hq
      refine place_mem_square hsize ?_
      rw [← hpaths]
      exact List.mem_flatten.mpr ⟨path, hpath, hc⟩

theorem exists_mem_laid (measure : Vec ℝ → Vec ℝ → ℝ) (size : Nat) {paths : List (List (Vec ℝ))}
    {q : Vec ℝ} (h : q ∈ paths.flatten) : ∃ p, p ∈ laid measure size paths := by
  obtain ⟨path, hpath, hq⟩ := List.mem_flatten.mp h
  obtain ⟨first, rest, hpaths⟩ := List.exists_cons_of_ne_nil (List.ne_nil_of_mem h)
  refine ⟨(Frame.around size first rest).place q, ?_⟩
  rw [laid_eq hpaths]
  exact List.mem_flatMap.mpr
    ⟨path, hpath, mem_samples_iff.mpr (Or.inl (List.mem_map_of_mem hq))⟩

/-! ### Shares -/

/-- Inside the grid nothing is moved. -/
theorem clipped_eq {size : Nat} {x : ℝ} (hx : 0 ≤ x) (hx' : x ≤ size - 1) :
    clipped size x = x := by
  have hlast : (Scalar.ofInt ((size : ℤ) - 1) : ℝ) = (size : ℝ) - 1 := by
    show (((size : ℤ) - 1 : ℤ) : ℝ) = _
    push_cast
    rfl
  rw [clipped, Scalar.greater_eq, Scalar.lesser_eq, Scalar.zero_eq, hlast, max_eq_left hx,
    min_eq_left hx']

/-- A coordinate lies between its lower line and the next one, and both are lines of the grid. -/
theorem line_between {size : Nat} (hsize : 2 ≤ size) {x : ℝ} (hx : 0 ≤ x) (hx' : x ≤ size - 1) :
    (0 ≤ line size x ∧ line size x + 1 ≤ (size : ℤ) - 1) ∧
      (line size x : ℝ) ≤ x ∧ x ≤ line size x + 1 := by
  have hline : line size x = min ⌊x⌋ ((size : ℤ) - 2) := rfl
  have hfloor : 0 ≤ ⌊x⌋ := Int.floor_nonneg.mpr hx
  rw [hline]
  by_cases hlast : ⌊x⌋ ≤ (size : ℤ) - 2
  · rw [min_eq_left hlast]
    exact ⟨⟨hfloor, by omega⟩, Int.floor_le x, (Int.lt_floor_add_one x).le⟩
  · -- On the last line the lower one is the line before it.
    have hge : (size : ℤ) - 1 ≤ ⌊x⌋ := by omega
    have hxge : ((size : ℤ) - 1 : ℤ) ≤ x := Int.le_floor.mp hge
    push_cast at hxge
    rw [min_eq_right (by omega)]
    push_cast
    exact ⟨⟨by omega, by omega⟩, by linarith, by linarith⟩

/-- The four shares of a sample, each the product of what falls to a column and to a row. -/
theorem deposits_eq {size : Nat} {p : Vec ℝ} (h : p ∈ square size) :
    deposits size p =
      let column := line size p.x
      let row := line size p.y
      let right := p.x - column
      let lower := p.y - row
      [⟨column, row, (1 - right) * (1 - lower)⟩, ⟨column + 1, row, right * (1 - lower)⟩,
        ⟨column, row + 1, (1 - right) * lower⟩, ⟨column + 1, row + 1, right * lower⟩] := by
  unfold deposits
  rw [clipped_eq h.1.1 h.2.1, clipped_eq h.1.2 h.2.2, Scalar.one_eq]
  rfl

/-- **A sample is shared out, completely, among four cells of the grid.** -/
theorem deposits_share {size : Nat} (hsize : 2 ≤ size) {p : Vec ℝ} (h : p ∈ square size) :
    (∀ d ∈ deposits size p, (0 ≤ d.column ∧ d.column ≤ (size : ℤ) - 1) ∧
        (0 ≤ d.row ∧ d.row ≤ (size : ℤ) - 1) ∧ 0 ≤ d.weight) ∧
      ((deposits size p).map Deposit.weight).sum = 1 := by
  obtain ⟨hcolumn, hleft, hright⟩ := line_between hsize h.1.1 h.2.1
  obtain ⟨hrow, habove, hbelow⟩ := line_between hsize h.1.2 h.2.2
  rw [deposits_eq h]
  constructor
  · have hfirst : 0 ≤ p.x - line size p.x := by linarith
    have hsecond : 0 ≤ 1 - (p.x - line size p.x) := by linarith
    have hthird : 0 ≤ p.y - line size p.y := by linarith
    have hfourth : 0 ≤ 1 - (p.y - line size p.y) := by linarith
    simp only [List.forall_mem_cons, List.not_mem_nil, false_implies, implies_true, and_true]
    exact ⟨⟨by omega, by omega, by positivity⟩, ⟨by omega, by omega, by positivity⟩,
      ⟨by omega, by omega, by positivity⟩, ⟨by omega, by omega, by positivity⟩⟩
  · simp only [List.map_cons, List.map_nil, List.sum_cons, List.sum_nil]
    ring

theorem weight_le_one {size : Nat} (hsize : 2 ≤ size) {p : Vec ℝ} (h : p ∈ square size)
    {d : Deposit ℝ} (hd : d ∈ deposits size p) : d.weight ≤ 1 := by
  obtain ⟨hshares, hwhole⟩ := deposits_share hsize h
  rw [← hwhole]
  refine List.single_le_sum ?_ _ (List.mem_map_of_mem hd)
  rw [List.forall_mem_map]
  exact fun e he => (hshares e he).2.2

/-- One of four shares is a quarter or more. -/
theorem exists_quarter_le {size : Nat} (hsize : 2 ≤ size) {p : Vec ℝ} (h : p ∈ square size) :
    ∃ d ∈ deposits size p, 1 / 4 ≤ d.weight := by
  have hlength : (deposits size p).length = 4 := rfl
  have hsome : deposits size p ≠ [] := List.cons_ne_nil _ _
  have hquarters : ((deposits size p).map fun _ => (1 / 4 : ℝ)).sum = 1 := by
    rw [List.map_const', List.sum_replicate, hlength]
    norm_num
  refine List.exists_le_of_sum_le hsome (fun _ => (1 / 4 : ℝ)) Deposit.weight ?_
  rw [hquarters, (deposits_share hsize h).2]

theorem cell_lt {size : Nat} (hsize : size ≠ 0) (d : Deposit ℝ) : d.cell size < size * size := by
  have hrow := Int.emod_lt_of_pos d.row (by omega : 0 < (size : ℤ))
  have hcolumn := Int.emod_lt_of_pos d.column (by omega : 0 < (size : ℤ))
  have hlast : (d.row % size).toNat * size ≤ (size - 1) * size :=
    Nat.mul_le_mul_right size (by omega)
  rw [Nat.sub_one_mul] at hlast
  have hwhole := Nat.le_mul_self size
  unfold Deposit.cell
  omega

/-! ### Cells -/

section
variable {measure : Vec ℝ → Vec ℝ → ℝ} {size : Nat} {paths : List (List (Vec ℝ))}

/-- No cell is more than full. -/
theorem cells_between (hsize : 2 ≤ size) {v : ℝ} (h : v ∈ cells measure size paths) :
    0 ≤ v ∧ v ≤ 1 := by
  obtain ⟨c, hc, rfl⟩ := mem_cells_iff.mp h
  refine ⟨((getD_filled_le_iff hc).mp le_rfl).1,
    (getD_filled_le_iff hc).mpr ⟨zero_le_one, fun p hp d hd _ => ?_⟩⟩
  exact weight_le_one hsize (laid_mem_square (by omega) hp) hd

/-- Wherever there is a point, some cell is filled to a quarter. -/
theorem exists_quarter_le_cell (hsize : 2 ≤ size) {q : Vec ℝ} (h : q ∈ paths.flatten) :
    ∃ v ∈ cells measure size paths, 1 / 4 ≤ v := by
  obtain ⟨p, hp⟩ := exists_mem_laid measure size h
  obtain ⟨d, hd, hquarter⟩ := exists_quarter_le hsize (laid_mem_square (by omega) hp)
  have hcell := cell_lt (by omega : size ≠ 0) d
  refine ⟨_, mem_cells_iff.mpr ⟨d.cell size, hcell, rfl⟩, hquarter.trans ?_⟩
  exact ((getD_filled_le_iff hcell).mp le_rfl).2 p hp d hd rfl

end

end Raster

open Raster in
/--
**The samples of a gesture stay on the grid, and some cell is filled to a quarter or more.**

However segments are measured, each sample lies on the grid before it would be moved
there.  It is shared out among four cells in rows and columns of the grid, and the shares
are not negative and come to one.  So each feature is between zero and one, and one of them
is a quarter at least: for single points too, for what hardly extends at all, and for
whatever is much longer than wide.
-/
theorem samples_stay_on_the_grid (g : Gesture) (hstrokes : g.strokes ≠ []) {size : Nat}
    (hsize : 2 ≤ size) (measure : Vec ℝ → Vec ℝ → ℝ) :
    cells measure size g.paths = (filled size (laid measure size g.paths)).toList ∧
    (∀ p ∈ laid measure size g.paths,
      (0 ≤ p.x ∧ p.x ≤ size - 1 ∧ 0 ≤ p.y ∧ p.y ≤ size - 1) ∧
      (clipped size p.x = p.x ∧ clipped size p.y = p.y) ∧
      (deposits size p).length = 4 ∧
      (∀ d ∈ deposits size p, (0 ≤ d.column ∧ d.column ≤ (size : ℤ) - 1) ∧
        (0 ≤ d.row ∧ d.row ≤ (size : ℤ) - 1) ∧ 0 ≤ d.weight) ∧
      ((deposits size p).map Deposit.weight).sum = 1) ∧
    (∀ v ∈ cells measure size g.paths, 0 ≤ v ∧ v ≤ 1) ∧
    (∃ v ∈ cells measure size g.paths, 1 / 4 ≤ v) ∧
    rasterized (some size) g.paths = .ok (cells straight size (g.paths (α := ℝ))) := by
  obtain ⟨s, rest, hs⟩ := List.exists_cons_of_ne_nil hstrokes
  have hpaths : (g.paths : List (List (Vec ℝ))) = s.path :: rest.map Stroke.path := by
    rw [Gesture.paths, hs, List.map_cons]
  obtain ⟨q, hq⟩ : ∃ q, q ∈ (s.path : List (Vec ℝ)) := by
    refine List.exists_mem_of_ne_nil _ ?_
    rw [Stroke.path, Ne, List.map_eq_nil_iff]
    exact s.nonempty
  refine ⟨cells_eq measure size _, fun p hp => ?_, fun v hv => cells_between hsize hv,
    exists_quarter_le_cell (q := q) hsize ?_, rasterized_eq ?_ (by omega)⟩
  · have h := laid_mem_square (by omega) hp
    exact ⟨⟨h.1.1, h.2.1, h.1.2, h.2.2⟩, ⟨clipped_eq h.1.1 h.2.1, clipped_eq h.1.2 h.2.2⟩, rfl,
      deposits_share hsize h⟩
  · rw [hpaths, List.flatten_cons]
    exact List.mem_append_left _ hq
  · rw [hpaths]
    exact List.cons_ne_nil _ _

open Raster in
/-- A tap fills the four cells of the smallest grid alike. -/
theorem tap_fills_a_quarter : (Gesture.dot 7).strokes ≠ [] ∧
    ∃ v ∈ cells straight 2 ((Gesture.dot 7).paths (α := ℝ)), 1 / 4 ≤ v := by
  have hstrokes : (Gesture.dot 7).strokes ≠ [] := by decide
  obtain ⟨-, -, -, hquarter, -⟩ := samples_stay_on_the_grid (.dot 7) hstrokes le_rfl straight
  exact ⟨hstrokes, hquarter⟩

end GestureStore
