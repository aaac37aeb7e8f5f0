/-
Narrowing undoes widening.

A finite number in single precision keeps its value when it is widened.  A normal one has
its fraction moved up by 29 bits; a subnormal one becomes normal, as the wider format has
room for its leading bit, and its fraction moves up by more.  Either way the bits that
narrowing drops are zero (`Widened`), so nothing is rounded, and the sign is carried along.

A widened number is no NaN, and every other pattern is kept as it is (`toBits_ofBits`).
-/
import GestureStore.Number.Single
import Mathlib

namespace GestureStore

open Float.Model (Format)
open Float.Model.UnpackedFloat (pack_unpack_of_valid)

/-- A quotient without a rest is not rounded. -/
theorem roundDiv_mul (n : Nat) {d : Nat} (hd : 0 < d) : roundDiv (n * d) d = n := by
  unfold roundDiv
  rw [Nat.mul_div_cancel n hd, Nat.mul_mod_left]
  exact if_pos (by omega)

namespace Single

/-! ### Magnitudes -/

/-- The fields of a widened magnitude.  What narrowing drops of the significand is zero. -/
structure Widened (n e f : Nat) : Prop where
  magnitude : widenMagnitude n = e * 2 ^ 52 + f
  fraction : f < 2 ^ 52
  exponent : e < 2047
  significand : ∃ kept, (if e = 0 then f else 2 ^ 52 + f) = kept * 2 ^ (29 + (897 - max e 1)) ∧
    kept + (max e 1 - 897) * 2 ^ 23 = n

theorem widened_zero : Widened 0 0 0 :=
  ⟨rfl, by decide, by decide, 0, (Nat.zero_mul _).symm, rfl⟩

theorem widened_normal {e f : Nat} (he : e ≠ 0) (he' : e < 255) (hf : f < 2 ^ 23) :
    Widened (e * 2 ^ 23 + f) (e + 896) (f * 2 ^ 29) := by
  refine ⟨?_, by omega, by omega, 2 ^ 23 + f, ?_, ?_⟩
  · unfold widenMagnitude
    dsimp only [Nat.pow_eq]
    rw [show (e * 2 ^ 23 + f) / 2 ^ 23 = e by omega, show (e * 2 ^ 23 + f) % 2 ^ 23 = f by omega,
      if_neg (by omega), if_neg he]
  · rw [if_neg (by omega), show 29 + (897 - max (e + 896) 1) = 29 by omega, Nat.add_mul,
      ← Nat.pow_add]
  · rw [show max (e + 896) 1 - 897 = e - 1 by omega]
    omega

theorem widened_subnormal {f : Nat} (hsome : f ≠ 0) (hf : f < 2 ^ 23) :
    Widened f (f.log2 + 874) ((f - 2 ^ f.log2) * 2 ^ (52 - f.log2)) := by
  have hlog : f.log2 < 23 := (Nat.log2_lt hsome).mpr hf
  have hlead : 2 ^ f.log2 ≤ f := Nat.log2_self_le hsome
  have hwhole : 2 ^ f.log2 * 2 ^ (52 - f.log2) = 2 ^ 52 := by
    rw [← Nat.pow_add, Nat.add_sub_cancel' (by omega)]
  refine ⟨?_, ?_, by omega, f, ?_, by omega⟩
  · unfold widenMagnitude
    dsimp only [Nat.pow_eq]
    rw [show f / 2 ^ 23 = 0 by omega, show f % 2 ^ 23 = f by omega, if_neg (by decide), if_pos rfl,
      if_neg hsome]
  · have hrest : f - 2 ^ f.log2 < 2 ^ f.log2 := by
      have hbelow : f < 2 ^ (f.log2 + 1) := Nat.lt_log2_self
      rw [Nat.pow_succ] at hbelow
      omega
    calc (f - 2 ^ f.log2) * 2 ^ (52 - f.log2)
        < 2 ^ f.log2 * 2 ^ (52 - f.log2) := Nat.mul_lt_mul_of_pos_right hrest (Nat.two_pow_pos _)
      _ = 2 ^ 52 := hwhole
  · rw [if_neg (by omega), show 29 + (897 - max (f.log2 + 874) 1) = 52 - f.log2 by omega, ← hwhole,
      ← Nat.add_mul, Nat.add_sub_cancel' hlead]

/-- Every magnitude below the infinity has such fields. -/
theorem exists_widened {n : Nat} (h : n / 2 ^ 23 < 255) : ∃ e f, Widened n e f := by
  by_cases hzero : n / 2 ^ 23 = 0
  · by_cases hnone : n = 0
    · exact ⟨0, 0, hnone ▸ widened_zero⟩
    · exact ⟨_, _, widened_subnormal hnone (by omega)⟩
  · have hfields := widened_normal hzero h (Nat.mod_lt n (by decide))
    rw [Nat.div_add_mod'] at hfields
    exact ⟨_, _, hfields⟩

theorem widenMagnitude_lt {n : Nat} (h : n / 2 ^ 23 < 255) : widenMagnitude n < 2047 * 2 ^ 52 := by
  obtain ⟨e, f, hmagnitude, hfraction, hexponent, -⟩ := exists_widened h
  rw [hmagnitude]
  omega

/-- **Below the infinity, narrowing takes a widened magnitude back.** -/
theorem narrowMagnitude_widenMagnitude {n : Nat} (h : n / 2 ^ 23 < 255) :
    narrowMagnitude (widenMagnitude n) = n := by
  obtain ⟨e, f, hmagnitude, hfraction, hexponent, kept, hkept, hwhole⟩ := exists_widened h
  unfold narrowMagnitude
  dsimp only [Nat.pow_eq]
  rw [hmagnitude, show (e * 2 ^ 52 + f) / 2 ^ 52 = e by omega,
    show (e * 2 ^ 52 + f) % 2 ^ 52 = f by omega, if_neg (by omega), hkept,
    roundDiv_mul _ (Nat.two_pow_pos _), hwhole]
  omega

/-! ### Patterns -/

theorem magnitude_lt {s : Single} (h : s.isFinite = true) :
    s.bits.toNat % 2 ^ 31 / 2 ^ 23 < 255 := by
  have hexponent : s.bits.toNat / 2 ^ 23 % 2 ^ 8 ≠ 255 := by simpa [isFinite, exponentField] using h
  omega

theorem toNat_widen {s : Single} (h : s.isFinite = true) :
    s.widen.toNat = s.bits.toNat / 2 ^ 31 * 2 ^ 63 + widenMagnitude (s.bits.toNat % 2 ^ 31) := by
  have hlt := widenMagnitude_lt (magnitude_lt h)
  have hbits := s.bits.toNat_lt
  unfold widen
  dsimp only [Nat.pow_eq]
  rw [UInt64.toNat_ofNat', Nat.mod_eq_of_lt (by omega)]

/-- **Narrowing takes a widened number back, its sign included.** -/
theorem narrow_widen {s : Single} (h : s.isFinite = true) : narrow s.widen = s := by
  have hlt := widenMagnitude_lt (magnitude_lt h)
  have hwiden := toNat_widen h
  have hpattern : s.widen.toNat / 2 ^ 63 * 2 ^ 31 + narrowMagnitude (s.widen.toNat % 2 ^ 63)
      = s.bits.toNat := by
    rw [show s.widen.toNat / 2 ^ 63 = s.bits.toNat / 2 ^ 31 by omega,
      show s.widen.toNat % 2 ^ 63 = widenMagnitude (s.bits.toNat % 2 ^ 31) by omega,
      narrowMagnitude_widenMagnitude (magnitude_lt h)]
    omega
  unfold narrow
  dsimp only [Nat.pow_eq]
  rw [hpattern, UInt32.ofNat_toNat]

/-! ### Numbers to compute with -/

/-- A pattern that is no NaN is kept. -/
theorem toBits_ofBits {b : UInt64} (h : b.toNat % 2 ^ 63 < 2047 * 2 ^ 52) :
    (Float.ofBits b).toBits = b := by
  have hvalid : Format.binary64.Valid b.toBitVec := by
    refine ⟨fun hones => ?_⟩
    have hfield : b.toNat / 2 ^ 52 % 2 ^ 11 = 2047 := by
      rw [← Nat.shiftRight_eq_div_pow]
      exact congrArg BitVec.toNat hones
    omega
  exact UInt64.toBitVec_inj.mp (pack_unpack_of_valid hvalid)

/-- **What is widened and narrowed again has the same bits.** -/
theorem ofFloat_toFloat {s : Single} (h : s.isFinite = true) : ofFloat s.toFloat = s := by
  have hlt := widenMagnitude_lt (magnitude_lt h)
  have hwiden := toNat_widen h
  rw [ofFloat, toFloat, toBits_ofBits (by omega), narrow_widen h]

end Single
end GestureStore
