/-
Numbers and their bytes determine each other.

`k` bytes hold exactly the numbers below `256 ^ k`, and in two's complement exactly
the integers that `Bytes.fits k` admits.  Both directions are needed: what is written
has to be read back, and what was read has to be what would be written, or a file
could be accepted that no library ever leaves behind.
-/
import GestureStore.Bytes
import Mathlib.Data.Nat.Cast.Order.Ring
import Mathlib.Tactic.Positivity
import Mathlib.Tactic.Ring
import Mathlib.Tactic.Zify

namespace GestureStore
namespace Bytes

@[simp] theorem length_ofNat (k n : Nat) : (ofNat k n).length = k := by
  induction k with
  | zero => rfl
  | succ k ih => simp [ofNat, ih]

@[simp] theorem length_ofInt (k : Nat) (i : Int) : (ofInt k i).length = k := length_ofNat _ _

/-! ### Unsigned numbers -/

private theorem foldl_eq (b : Bytes) :
    ∀ n : Nat, b.foldl (fun n x => n * 256 + x.toNat) n = n * 256 ^ b.length + toNat b := by
  induction b with
  | nil => intro n; simp [toNat]
  | cons x rest ih =>
      intro n
      have hx : toNat (x :: rest) = x.toNat * 256 ^ rest.length + toNat rest := by
        rw [toNat, List.foldl_cons, ih, Nat.zero_mul, Nat.zero_add]
      rw [List.foldl_cons, ih, hx, List.length_cons]
      ring

@[simp] theorem toNat_nil : toNat [] = 0 := rfl

theorem toNat_cons (x : UInt8) (b : Bytes) :
    toNat (x :: b) = x.toNat * 256 ^ b.length + toNat b := by
  rw [toNat, List.foldl_cons, foldl_eq]
  simp

theorem toNat_lt (b : Bytes) : toNat b < 256 ^ b.length := by
  induction b with
  | nil => simp
  | cons x rest ih =>
      rw [toNat_cons, List.length_cons]
      have hx : x.toNat + 1 ≤ 256 := x.toNat_lt
      calc x.toNat * 256 ^ rest.length + toNat rest
          < (x.toNat + 1) * 256 ^ rest.length := by rw [Nat.add_mul]; omega
        _ ≤ 256 * 256 ^ rest.length := Nat.mul_le_mul_right _ hx
        _ = 256 ^ (rest.length + 1) := by ring

theorem toNat_ofNat (k n : Nat) : toNat (ofNat k n) = n % 256 ^ k := by
  induction k with
  | zero => simp [ofNat, Nat.mod_one]
  | succ k ih =>
      have hx : (UInt8.ofNat (n / 256 ^ k)).toNat = n / 256 ^ k % 256 := UInt8.toNat_ofNat'
      rw [ofNat, toNat_cons, ih, length_ofNat, Nat.pow_eq, hx, Nat.pow_succ, Nat.mod_mul,
        Nat.mul_comm, Nat.add_comm]

/-- Only the low bytes of a number are looked at. -/
theorem ofNat_add_mul (k m n : Nat) : ofNat k (m * 256 ^ k + n) = ofNat k n := by
  induction k generalizing m with
  | zero => rfl
  | succ k ih =>
      have hsplit : m * 256 ^ (k + 1) + n = (m * 256) * 256 ^ k + n := by ring
      rw [hsplit, ofNat, ofNat, ih, Nat.pow_eq]
      congr 1
      rw [Nat.add_comm, Nat.add_mul_div_right _ _ (Nat.pow_pos (by decide)),
        ← UInt8.toNat_inj, UInt8.toNat_ofNat', UInt8.toNat_ofNat']
      omega

theorem ofNat_toNat (b : Bytes) : ofNat b.length (toNat b) = b := by
  induction b with
  | nil => rfl
  | cons x rest ih =>
      rw [List.length_cons, ofNat, toNat_cons, ofNat_add_mul, ih, Nat.pow_eq, Nat.add_comm,
        Nat.add_mul_div_right _ _ (Nat.pow_pos (by decide)), Nat.div_eq_of_lt (toNat_lt rest)]
      simp

/-- **`k` bytes are those of a number exactly if they denote it.** -/
theorem ofNat_eq_iff {k n : Nat} {b : Bytes} (h : n < 256 ^ k) :
    ofNat k n = b ↔ b.length = k ∧ toNat b = n := by
  refine ⟨?_, ?_⟩
  · intro h
    obtain rfl := h
    exact ⟨length_ofNat k n, by rw [toNat_ofNat, Nat.mod_eq_of_lt h]⟩
  · intro h
    obtain ⟨rfl, rfl⟩ := h
    exact ofNat_toNat b

/-! ### Signed numbers -/

theorem fits_iff {k : Nat} {i : Int} :
    fits k i = true ↔ -(256 ^ k : Int) ≤ 2 * i ∧ 2 * i < (256 ^ k : Int) := by
  simp [fits]

/-- **`k` bytes are those of an integer that fits exactly if they denote it.** -/
theorem ofInt_eq_iff {k : Nat} {i : Int} {b : Bytes} :
    fits k i = true ∧ ofInt k i = b ↔ b.length = k ∧ toInt b = i := by
  refine ⟨?_, ?_⟩
  · intro h
    obtain ⟨hfits, rfl⟩ := h
    obtain ⟨hlow, hhigh⟩ := fits_iff.mp hfits
    refine ⟨length_ofInt k i, ?_⟩
    have hpos : (0 : Int) < 256 ^ k := by positivity
    have hcast : ((i % (256 ^ k : Int)).toNat : Int) = i % 256 ^ k :=
      Int.toNat_of_nonneg (Int.emod_nonneg _ hpos.ne')
    have hlt : (i % (256 ^ k : Int)).toNat < 256 ^ k := by
      zify
      rw [hcast]
      exact Int.emod_lt_of_pos _ hpos
    have hval : toNat (ofInt k i) = (i % (256 ^ k : Int)).toNat := by
      rw [ofInt, toNat_ofNat, Nat.pow_eq, Nat.cast_pow, Nat.cast_ofNat, Nat.mod_eq_of_lt hlt]
    rw [toInt, hval, length_ofInt, Nat.pow_eq]
    -- An integer below zero stands one whole range higher than it is.
    by_cases hneg : i < 0
    · have hmod : i % (256 ^ k : Int) = i + 256 ^ k := by
        rw [← Int.add_emod_right, Int.emod_eq_of_lt (by omega) (by omega)]
      rw [if_neg (by zify; rw [hcast, hmod]; omega), hcast, hmod]
      push_cast
      omega
    · have hmod : i % (256 ^ k : Int) = i := Int.emod_eq_of_lt (by omega) (by omega)
      rw [if_pos (by zify; rw [hcast, hmod]; omega), hcast, hmod]
  · intro h
    obtain ⟨rfl, rfl⟩ := h
    have hlt : (toNat b : Int) < 256 ^ b.length := by exact_mod_cast toNat_lt b
    have hback : ofInt b.length (toInt b) = b := by
      have hmod : (toInt b % (256 ^ b.length : Int)).toNat = toNat b := by
        rw [toInt, Nat.pow_eq]
        split
        · rw [Int.emod_eq_of_lt (by omega) hlt, Int.toNat_natCast]
        · push_cast
          rw [Int.sub_emod_right, Int.emod_eq_of_lt (by omega) hlt, Int.toNat_natCast]
      rw [ofInt, Nat.pow_eq, Nat.cast_pow, Nat.cast_ofNat, hmod, ofNat_toNat]
    refine ⟨?_, hback⟩
    rw [fits_iff, toInt, Nat.pow_eq]
    split <;> rename_i h <;> zify at h <;> push_cast <;> refine ⟨?_, ?_⟩ <;> omega

end Bytes
end GestureStore
