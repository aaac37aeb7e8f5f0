/-
What a raster holds, over exact numbers.

Two folds stand between paths and cells: one over points, for the box around them, and one
over samples, for the cells.  Both keep the best so far, so all there is to know of them is
what their results are bounded by.  A cell is at most `w` exactly if no sample gives it
more than that (`getD_filled_le_iff`), and that says nothing of an order or of how often a
sample comes.  It is the same with the corners of the box (`le_lowest_iff`).

The samples of a path are its points and what lies between two that follow one another
(`mem_samples_iff`).  They are taken with the first point of a segment left out and the
last one kept, but the segment before, or the beginning of the path, supplies the first.
-/
import GestureStore.Proofs.Feature.Instance
import GestureStore.Proofs.Feature.Plane

namespace GestureStore
namespace Raster

open Space (along)

/-! ### Corners -/

theorem le_lowest_iff {v first : Vec ℝ} {rest : List (Vec ℝ)} :
    v ≤ lowest first rest ↔ ∀ p ∈ first :: rest, v ≤ p :=
  le_foldl_inf_iff

theorem highest_le_iff {v first : Vec ℝ} {rest : List (Vec ℝ)} :
    highest first rest ≤ v ↔ ∀ p ∈ first :: rest, p ≤ v :=
  le_foldl_inf_iff (V := (Vec ℝ)ᵒᵈ)

/-- The box around points holds them. -/
theorem mem_corners {first p : Vec ℝ} {rest : List (Vec ℝ)} (h : p ∈ first :: rest) :
    p ∈ Set.Icc (lowest first rest) (highest first rest) :=
  ⟨le_lowest_iff.mp le_rfl p h, highest_le_iff.mp le_rfl p h⟩

/-- A frame is made for points in whatever order, and however often they come. -/
theorem Frame.around_congr {first first' : Vec ℝ} {rest rest' : List (Vec ℝ)}
    (h : ∀ p, p ∈ first :: rest ↔ p ∈ first' :: rest') (size : Nat) :
    Frame.around size first rest = Frame.around size first' rest' := by
  have hlow : lowest first rest = lowest first' rest' := by
    refine eq_of_forall_le_iff fun v => ?_
    simp only [le_lowest_iff, h]
  have hhigh : highest first rest = highest first' rest' := by
    refine eq_of_forall_ge_iff fun v => ?_
    simp only [highest_le_iff, h]
  rw [around, around, hlow, hhigh]

/-! ### Frames -/

theorem leastSpan_eq : (leastSpan : ℝ) = 1e-8 := by
  show ((1 : ℕ) : ℝ) / 10 ^ 8 = _
  norm_num

/-- How far points extend, in the direction in which they extend farther. -/
noncomputable def extent (first : Vec ℝ) (rest : List (Vec ℝ)) : ℝ :=
  max ((highest first rest).x - (lowest first rest).x) ((highest first rest).y - (lowest first rest).y)

theorem Frame.place_around (size : Nat) (first : Vec ℝ) (rest : List (Vec ℝ)) (p : Vec ℝ) :
    (around size first rest).place p =
      let low := lowest first rest
      let high := highest first rest
      let scale := if 1e-8 < extent first rest then ((size : ℝ) - 1) / extent first rest else 0
      ⟨(p.x - (low.x + high.x) / 2) * scale + ((size : ℝ) - 1) / 2,
        (p.y - (low.y + high.y) / 2) * scale + ((size : ℝ) - 1) / 2⟩ := by
  have hlast : (Scalar.ofInt ((size : ℤ) - 1) : ℝ) = (size : ℝ) - 1 := by
    show (((size : ℤ) - 1 : ℤ) : ℝ) = _
    push_cast
    rfl
  have htwo : (Scalar.ofInt 2 : ℝ) = 2 := Int.cast_two
  simp only [around, place, Scalar.greater_eq, hlast, htwo, Scalar.lt_iff, leastSpan_eq,
    Scalar.zero_eq]
  rfl

/-! ### Samples -/

section
variable [Scalar α] {measure : Vec α → Vec α → α}

/-- All samples that are put on the grid of several paths. -/
def laid (measure : Vec α → Vec α → α) (size : Nat) (paths : List (List (Vec α))) :
    List (Vec α) :=
  match paths.flatten with
  | [] => []
  | first :: rest =>
    paths.flatMap fun path => samples measure (path.map (Frame.around size first rest).place)

theorem cells_eq (measure : Vec α → Vec α → α) (size : Nat) (paths : List (List (Vec α))) :
    cells measure size paths = (filled size (laid measure size paths)).toList := by
  unfold cells laid
  cases paths.flatten with
  | nil => exact (Array.toList_replicate ..).symm
  | cons first rest => rfl

/-- Where there is something to draw, and a cell to draw it in, there is an answer. -/
theorem rasterized_eq {paths : List (List (Vec α))} (h : paths ≠ []) {size : Nat}
    (hsize : size ≠ 0) : rasterized (some size) paths = .ok (features size paths) := by
  cases paths with
  | nil => exact absurd rfl h
  | cons path rest =>
      unfold rasterized
      dsimp only
      rw [if_neg (by omega), if_neg (by omega), Int.toNat_natCast]

theorem laid_eq {size : Nat} {paths : List (List (Vec α))} {first : Vec α} {rest : List (Vec α)}
    (h : paths.flatten = first :: rest) :
    laid measure size paths
      = paths.flatMap fun path => samples measure (path.map (Frame.around size first rest).place) := by
  unfold laid
  rw [h]

theorem mem_samplesFrom_iff {start p : Vec α} {rest : List (Vec α)} :
    p ∈ samplesFrom measure start rest ↔
      ∃ a b, [a, b] <:+: start :: rest ∧ p ∈ segmentSamples measure a b := by
  induction rest generalizing start with
  | nil =>
      simp only [samplesFrom, List.not_mem_nil, false_iff]
      rintro ⟨a, b, hab, -⟩
      have hlength := hab.length_le
      simp at hlength
  | cons next rest ih =>
      rw [samplesFrom, List.mem_append, ih]
      constructor
      · rintro (h | ⟨a, b, hab, h⟩)
        · exact ⟨start, next, ⟨[], rest, rfl⟩, h⟩
        · exact ⟨a, b, List.infix_cons hab, h⟩
      · rintro ⟨a, b, hab, h⟩
        rcases List.infix_cons_iff.mp hab with hfirst | hlater
        · rw [List.cons_prefix_cons, List.cons_prefix_cons] at hfirst
          obtain ⟨rfl, rfl, -⟩ := hfirst
          exact Or.inl h
        · exact Or.inr ⟨a, b, hlater, h⟩

end

theorem one_le_steps (length : ℝ) : 1 ≤ steps length := Nat.le_max_left _ _

/-- The samples of a segment divide it evenly, up to its end. -/
theorem mem_segmentSamples_iff {measure : Vec ℝ → Vec ℝ → ℝ} {a b p : Vec ℝ} :
    p ∈ segmentSamples measure a b ↔
      ∃ i < steps (measure a b), p = along ((i + 1) / steps (measure a b) : ℝ) a b := by
  have hsamples : segmentSamples measure a b = (List.range (steps (measure a b))).map
      fun i : Nat => along ((i + 1) / steps (measure a b) : ℝ) a b := by
    refine List.map_congr_left fun i _ => ?_
    show along ((((i + 1 : Nat) : ℤ) : ℝ) / ((steps (measure a b) : ℤ) : ℝ)) a b = _
    push_cast
    rfl
  rw [hsamples, List.mem_map]
  simp only [List.mem_range, eq_comm]

section
variable {measure : Vec ℝ → Vec ℝ → ℝ} {a b p : Vec ℝ}

theorem end_mem_segmentSamples (measure : Vec ℝ → Vec ℝ → ℝ) (a b : Vec ℝ) :
    b ∈ segmentSamples measure a b := by
  have hpos := one_le_steps (measure a b)
  refine mem_segmentSamples_iff.mpr ⟨steps (measure a b) - 1, by omega, ?_⟩
  have hcast : ((steps (measure a b) - 1 : Nat) : ℝ) + 1 = steps (measure a b) := by
    exact_mod_cast Nat.sub_add_cancel hpos
  have hne : (steps (measure a b) : ℝ) ≠ 0 := by
    exact_mod_cast (by omega : steps (measure a b) ≠ 0)
  rw [hcast, div_self hne, Vec.along_one]

theorem eq_of_mem_segmentSamples_self (h : p ∈ segmentSamples measure a a) : p = a := by
  obtain ⟨i, -, rfl⟩ := mem_segmentSamples_iff.mp h
  exact Vec.along_self _ a

/-- Backwards the same places are sampled, but that the other end is left out. -/
theorem mem_segmentSamples_swap (hsymm : ∀ a b, measure a b = measure b a)
    (h : p ∈ segmentSamples measure a b) : p = b ∨ p ∈ segmentSamples measure b a := by
  obtain ⟨i, hi, rfl⟩ := mem_segmentSamples_iff.mp h
  by_cases hlast : i + 1 = steps (measure a b)
  · left
    have hne : (steps (measure a b) : ℝ) ≠ 0 := by
      exact_mod_cast (by omega : steps (measure a b) ≠ 0)
    rw [show (i : ℝ) + 1 = steps (measure a b) by exact_mod_cast hlast, div_self hne,
      Vec.along_one]
  · right
    rw [Vec.along_swap]
    refine mem_segmentSamples_iff.mpr ⟨steps (measure a b) - (i + 1) - 1, ?_, ?_⟩
    · rw [hsymm b a]
      omega
    · rw [hsymm b a]
      congr 1
      have hne : (steps (measure a b) : ℝ) ≠ 0 := by
        exact_mod_cast (by omega : steps (measure a b) ≠ 0)
      have hsub : ((steps (measure a b) - (i + 1) - 1 : Nat) : ℝ) + 1
          = steps (measure a b) - (i + 1) := by
        rw [Nat.cast_sub (by omega), Nat.cast_sub (by omega)]
        push_cast
        ring
      rw [hsub, sub_div, div_self hne]

/-- **The samples of a path are its points and what lies between two in a row.** -/
theorem mem_samples_iff {path : List (Vec ℝ)} :
    p ∈ samples measure path ↔
      p ∈ path ∨ ∃ a b, [a, b] <:+: path ∧ a ≠ b ∧ p ∈ segmentSamples measure a b := by
  cases path with
  | nil =>
      simp only [samples, List.not_mem_nil, false_or, false_iff]
      rintro ⟨a, b, hab, -⟩
      simp at hab
  | cons first rest =>
      rw [samples, List.mem_cons, mem_samplesFrom_iff]
      constructor
      · rintro (rfl | ⟨a, b, hab, h⟩)
        · exact Or.inl (List.mem_cons_self ..)
        · by_cases hne : a = b
          · subst hne
            rw [eq_of_mem_segmentSamples_self h]
            exact Or.inl (hab.subset (List.mem_cons_self ..))
          · exact Or.inr ⟨a, b, hab, hne, h⟩
      · rintro (h | ⟨a, b, hab, -, h⟩)
        · rcases List.mem_cons.mp h with rfl | hrest
          · exact Or.inl rfl
          · -- A point that is not the first ends the segment before it.
            obtain ⟨before, after, hsplit⟩ := List.append_of_mem hrest
            obtain ⟨front, a, hfront⟩ : ∃ front a, first :: before = front ++ [a] :=
              ⟨_, _, (List.dropLast_append_getLast (List.cons_ne_nil first before)).symm⟩
            refine Or.inr ⟨a, p, ⟨front, after, ?_⟩, end_mem_segmentSamples measure a p⟩
            rw [hsplit, ← List.cons_append, hfront]
            simp
        · exact Or.inr ⟨a, b, hab, h⟩

end

/-! ### Cells -/

theorem getD_foldl_give_le_iff {size c : Nat} {w : ℝ} {ds : List (Deposit ℝ)} :
    ∀ {cells : Array ℝ}, c < cells.size →
      ((ds.foldl (give size) cells).getD c 0 ≤ w ↔
        cells.getD c 0 ≤ w ∧ ∀ d ∈ ds, d.cell size = c → d.weight ≤ w) := by
  induction ds with
  | nil => simp
  | cons d rest ih =>
      intro cells hc
      have hgiven : c < (give size cells d).size := by rwa [give, Array.size_modify]
      have hcell : (give size cells d).getD c 0 ≤ w ↔
          cells.getD c 0 ≤ w ∧ (d.cell size = c → d.weight ≤ w) := by
        have hget : (give size cells d).getD c 0
            = if d.cell size = c then max (cells.getD c 0) d.weight else cells.getD c 0 := by
          simp [give, Array.getElem_modify, hc, Scalar.greater_eq]
        rw [hget]
        by_cases hd : d.cell size = c
        · simp [hd]
        · simp [hd]
      rw [List.foldl_cons, ih hgiven, hcell, List.forall_mem_cons, and_assoc]

/-- **A cell is at most as full as the greatest share that a sample gives it.** -/
theorem getD_filled_le_iff {size c : Nat} (hc : c < size * size) {w : ℝ} {all : List (Vec ℝ)} :
    (filled size all).getD c 0 ≤ w ↔
      0 ≤ w ∧ ∀ p ∈ all, ∀ d ∈ deposits size p, d.cell size = c → d.weight ≤ w := by
  have hempty : (Array.replicate (size * size) (Scalar.zero : ℝ)).getD c 0 = 0 := by
    simp [hc, Scalar.zero_eq]
  rw [filled, getD_foldl_give_le_iff (by rwa [Array.size_replicate]), hempty]
  refine and_congr_right fun _ => ?_
  simp only [List.mem_flatMap]
  constructor
  · intro h p hp d hd
    exact h d ⟨p, hp, hd⟩
  · rintro h d ⟨p, hp, hd⟩
    exact h p hp d hd

theorem size_filled (size : Nat) (all : List (Vec ℝ)) : (filled size all).size = size * size := by
  rw [filled, size_foldl_give, Array.size_replicate]

theorem mem_cells_iff {measure : Vec ℝ → Vec ℝ → ℝ} {size : Nat} {paths : List (List (Vec ℝ))}
    {v : ℝ} : v ∈ cells measure size paths ↔
      ∃ c < size * size, (filled size (laid measure size paths)).getD c 0 = v := by
  rw [cells_eq, Array.mem_toList_iff, Array.mem_iff_getElem]
  constructor
  · rintro ⟨c, hc, rfl⟩
    exact ⟨c, by rwa [size_filled] at hc, by simp [hc]⟩
  · rintro ⟨c, hc, rfl⟩
    have hsize : c < (filled size (laid measure size paths)).size := by rwa [size_filled]
    exact ⟨c, hsize, by simp [hsize]⟩

/-- **The same samples fill the same cells**, in whatever order and however often they come. -/
theorem filled_congr {all all' : List (Vec ℝ)} (h : ∀ p, p ∈ all ↔ p ∈ all') (size : Nat) :
    filled size all = filled size all' := by
  refine Array.ext (by rw [size_filled, size_filled]) fun c hc hc' => ?_
  have hrange : c < size * size := by rwa [size_filled] at hc
  have hcell : (filled size all).getD c 0 = (filled size all').getD c 0 := by
    refine eq_of_forall_ge_iff fun w => ?_
    rw [getD_filled_le_iff hrange, getD_filled_le_iff hrange]
    simp only [h]
  simpa [hc, hc'] using hcell

end Raster
end GestureStore
