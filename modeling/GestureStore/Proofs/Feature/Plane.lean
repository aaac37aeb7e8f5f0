/-
The plane over exact numbers.

One point lies below another if neither of its coordinates is greater.  Points with this
order are a lattice, so the corners of a box around points are a meet and a join, and a
box is an interval.  Whatever lies between two points of a box is in the box
(`along_mem_box`), and going from one to the other or back leads through the same points
(`along_swap`).

Lengths are those of Euclid, so only what does not move at all has none.
-/
import GestureStore.Feature.Path
import GestureStore.Proofs.Number.Exact

namespace GestureStore

/-! ### Boxes -/

noncomputable instance : Lattice (Vec ℝ) where
  le v w := v.x ≤ w.x ∧ v.y ≤ w.y
  le_refl v := ⟨le_rfl, le_rfl⟩
  le_trans u v w huv hvw := ⟨huv.1.trans hvw.1, huv.2.trans hvw.2⟩
  le_antisymm v w hvw hwv := by
    cases v
    cases w
    rw [Vec.mk.injEq]
    exact ⟨le_antisymm hvw.1 hwv.1, le_antisymm hvw.2 hwv.2⟩
  inf v w := ⟨Scalar.lesser v.x w.x, Scalar.lesser v.y w.y⟩
  sup v w := ⟨Scalar.greater v.x w.x, Scalar.greater v.y w.y⟩
  inf_le_left v w := by
    simp only [Scalar.lesser_eq]
    exact ⟨min_le_left _ _, min_le_left _ _⟩
  inf_le_right v w := by
    simp only [Scalar.lesser_eq]
    exact ⟨min_le_right _ _, min_le_right _ _⟩
  le_inf u v w huv huw := by
    simp only [Scalar.lesser_eq]
    exact ⟨le_min huv.1 huw.1, le_min huv.2 huw.2⟩
  le_sup_left v w := by
    simp only [Scalar.greater_eq]
    exact ⟨le_max_left _ _, le_max_left _ _⟩
  le_sup_right v w := by
    simp only [Scalar.greater_eq]
    exact ⟨le_max_right _ _, le_max_right _ _⟩
  sup_le u v w huw hvw := by
    simp only [Scalar.greater_eq]
    exact ⟨max_le huw.1 hvw.1, max_le huw.2 hvw.2⟩

/-- What lies below a meet of many lies below all of them. -/
theorem le_foldl_inf_iff [SemilatticeInf V] {v first : V} {rest : List V} :
    v ≤ rest.foldl (· ⊓ ·) first ↔ ∀ p ∈ first :: rest, v ≤ p := by
  induction rest generalizing first with
  | nil => simp
  | cons q rest ih =>
      rw [List.foldl_cons, ih]
      simp [le_inf_iff, and_assoc]

/-! ### Segments -/

/-- The point that divides the way from one point to another; the whole way is one. -/
def Space.along [Space V α] (t : α) (a b : V) : V := Space.add a (Space.scale t (Space.sub b a))

namespace Vec

theorem add_eq (v w : Vec ℝ) : Space.add v w = ⟨v.x + w.x, v.y + w.y⟩ := rfl

theorem sub_eq (v w : Vec ℝ) : Space.sub v w = ⟨v.x - w.x, v.y - w.y⟩ := rfl

theorem scale_eq (k : ℝ) (v : Vec ℝ) : Space.scale k v = ⟨k * v.x, k * v.y⟩ := rfl

theorem norm_eq (v : Vec ℝ) : Space.norm v = √(v.x * v.x + v.y * v.y) := rfl

theorem along_eq (t : ℝ) (a b : Vec ℝ) :
    Space.along t a b = ⟨a.x + t * (b.x - a.x), a.y + t * (b.y - a.y)⟩ := rfl

theorem along_self (t : ℝ) (a : Vec ℝ) : Space.along t a a = a := by
  rw [along_eq, sub_self, sub_self, mul_zero, add_zero, add_zero]

theorem along_one (a b : Vec ℝ) : Space.along (1 : ℝ) a b = b := by
  rw [along_eq, one_mul, one_mul, add_sub_cancel, add_sub_cancel]

/-- A way and the way back lead through the same points. -/
theorem along_swap (t : ℝ) (a b : Vec ℝ) : Space.along t a b = Space.along (1 - t) b a := by
  rw [along_eq, along_eq, mk.injEq]
  constructor
  · ring
  · ring

theorem between_of_along {t a b low high : ℝ} (ht : 0 ≤ t) (ht' : t ≤ 1)
    (ha : low ≤ a ∧ a ≤ high) (hb : low ≤ b ∧ b ≤ high) :
    low ≤ a + t * (b - a) ∧ a + t * (b - a) ≤ high := by
  constructor <;> nlinarith [ha.1, ha.2, hb.1, hb.2]

/-- A box holds every way from one of its points to another. -/
theorem along_mem_box {t : ℝ} (ht : 0 ≤ t) (ht' : t ≤ 1) {a b low high : Vec ℝ}
    (ha : a ∈ Set.Icc low high) (hb : b ∈ Set.Icc low high) :
    Space.along t a b ∈ Set.Icc low high := by
  have hx := between_of_along ht ht' ⟨ha.1.1, ha.2.1⟩ ⟨hb.1.1, hb.2.1⟩
  have hy := between_of_along ht ht' ⟨ha.1.2, ha.2.2⟩ ⟨hb.1.2, hb.2.2⟩
  rw [along_eq]
  exact ⟨⟨hx.1, hy.1⟩, ⟨hx.2, hy.2⟩⟩

end Vec

end GestureStore
