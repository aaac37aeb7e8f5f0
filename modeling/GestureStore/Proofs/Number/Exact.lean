/-
Exact numbers.

Features, distances and scores are computed with scalars, and the real numbers are
scalars as well.  Over them nothing is rounded, neither while something is computed nor
when a vector is stored, so what holds over them is what the definitions mean.

A pattern in single precision is worth the number it denotes, and zero where it denotes
none.
-/
import GestureStore.Proofs.Number.Order

namespace GestureStore

/-- What a pattern is worth, exactly. -/
noncomputable def Single.worth (s : Single) : ℝ :=
  if s.isFinite then
    (if s.bits.toNat < 2 ^ 31 then 1 else -1)
      * ((if s.exponentField = 0 then 0 else 2 ^ 23) + s.fractionField)
      * 2 ^ ((max s.exponentField 1 : ℤ) - 150)
  else 0

example : Single.worth ⟨0xC0200000⟩ = -5 / 2 := by
  have hfinite : Single.isFinite ⟨0xC0200000⟩ = true := by decide
  have hexponent : Single.exponentField ⟨0xC0200000⟩ = 128 := by decide
  have hfraction : Single.fractionField ⟨0xC0200000⟩ = 2 ^ 21 := by decide
  have hsign : ¬ (0xC0200000 : UInt32).toNat < 2 ^ 31 := by decide
  rw [Single.worth, if_pos hfinite, if_neg hsign, hexponent, hfraction]
  norm_num

noncomputable instance : Scalar ℝ where
  ofInt i := i
  ofDecimal m places := m / 10 ^ places
  ofSingle := Single.worth
  lt x y := decide (x < y)
  floor x := ⌊x⌋
  sqrt := Real.sqrt
  cos := Real.cos
  sin := Real.sin
  acos := Real.arccos
  atan2 y x := Complex.arg ⟨x, y⟩

instance : Stored ℝ ℝ where
  store := id
  fetch := id

theorem Stored.map_store (v : List ℝ) : v.map (Stored.store : ℝ → ℝ) = v := List.map_id v

theorem Stored.map_fetch (v : List ℝ) : v.map (Stored.fetch : ℝ → ℝ) = v := List.map_id v

namespace Scalar

theorem lt_iff {x y : ℝ} : lt x y = true ↔ x < y := decide_eq_true_iff

theorem lt_eq_false_iff {x y : ℝ} : lt x y = false ↔ y ≤ x := by
  rw [Bool.eq_false_iff, Ne, lt_iff, not_lt]

theorem zero_eq : (zero : ℝ) = 0 := Int.cast_zero

theorem one_eq : (one : ℝ) = 1 := Int.cast_one

theorem lesser_eq (x y : ℝ) : lesser x y = min x y := by
  unfold lesser
  by_cases h : y < x
  · rw [if_pos (lt_iff.mpr h), min_eq_right h.le]
  · rw [if_neg (mt lt_iff.mp h), min_eq_left (not_lt.mp h)]

theorem greater_eq (x y : ℝ) : greater x y = max x y := by
  unfold greater
  by_cases h : x < y
  · rw [if_pos (lt_iff.mpr h), max_eq_right h.le]
  · rw [if_neg (mt lt_iff.mp h), max_eq_left (not_lt.mp h)]

theorem sum_eq (xs : List ℝ) : sum xs = xs.sum := by
  rw [List.sum_eq_foldl, ← zero_eq]
  rfl

end Scalar

instance : Scalar.Ordered ℝ where
  irrefl _ := Scalar.lt_eq_false_iff.mpr le_rfl
  trans hxy hyz := Scalar.lt_iff.mpr ((Scalar.lt_iff.mp hxy).trans (Scalar.lt_iff.mp hyz))
  trichotomy _ _ hxy hyx :=
    le_antisymm (Scalar.lt_eq_false_iff.mp hyx) (Scalar.lt_eq_false_iff.mp hxy)

end GestureStore
