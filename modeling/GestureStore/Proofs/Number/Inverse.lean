/-
The inverse of a finite number above zero is above zero.

A weight is the inverse of a distance, and only weights above zero count.  In exact
arithmetic there is nothing to say; among doubles an inverse might round to zero.  It
does not, as the inverse of the greatest double is still well above the least one.

The argument goes through the three stages of a division.  The quotient comes as a
significand that is not zero, with an exponent that is not too low (`Held`).  Rounding
only drops bits that do not fit, and leaves a significand that is in range
(`InRange`).  Packing such a number, at worst as an infinity, does not make it zero.
-/
import GestureStore.Learner
import GestureStore.Proofs.Number.Order

namespace GestureStore
namespace Double

open Float.Model (UnpackedFloat Format totalExponent)
open Float.Model.UnpackedFloat

/-- The highest bit of `m · 2 ^ e` is no lower than the lowest that a double can have. -/
structure Held (m : Nat) (e : Int) : Prop where
  /-- There is such a bit. -/
  pos : 0 < m
  /-- It is not too low. -/
  high : -1074 ≤ (m.log2 : Int) + e

/-- The significand and the exponent fit a double, unless the exponent is too large. -/
structure InRange (m : Nat) (e : Int) : Prop where
  /-- The significand is not zero. -/
  pos : 0 < m
  /-- It has no more bits than there is room for. -/
  short : m < 2 ^ 53
  /-- The exponent is not too low. -/
  low : -1074 ≤ e

theorem targetExponent_eq (e : Int) : Format.binary64.targetExponent e = max (e - 53) (-1074) := rfl

/-! ### Rounding -/

theorem mantissa_shiftRight (em : ExtendedMantissa) (n : Nat) :
    (em >>> n).mantissa = em.mantissa / 2 ^ n := by
  show (n.repeat ExtendedMantissa.shiftRightOne em).mantissa = _
  induction n with
  | zero => rw [Nat.pow_zero, Nat.div_one]; rfl
  | succ n ih =>
      have hstep : (Nat.repeat ExtendedMantissa.shiftRightOne (n + 1) em).mantissa
          = (n.repeat ExtendedMantissa.shiftRightOne em).mantissa / 2 := rfl
      rw [hstep, ih, Nat.div_div_eq_div_mul, Nat.pow_succ]

/-- Bits are dropped until the rest is in range, and not all of them. -/
theorem Held.inRange_shift {m : Nat} {e : Int} (h : Held m e) (a : Accuracy) :
    InRange (shiftToTargetExponent Format.binary64 m e a).1.mantissa
      (shiftToTargetExponent Format.binary64 m e a).2 := by
  obtain ⟨hpos, hlow⟩ := h
  have hmantissa : (ExtendedMantissa.ofMantissaAndAccuracy m a).mantissa = m := by
    rcases a with _ | (_ | _ | _) <;> rfl
  unfold shiftToTargetExponent shiftToExponent
  dsimp only
  rw [mantissa_shiftRight, hmantissa, targetExponent_eq, totalExponent]
  generalize hk : (max ((m.log2 : Int) + 1 + e - 53) (-1074) - e).toNat = k
  have hsome : k ≤ m.log2 := by omega
  have henough : m.log2 + 1 ≤ 53 + k := by omega
  refine ⟨Nat.div_pos ?_ (Nat.two_pow_pos k), ?_, by omega⟩
  · exact (Nat.pow_le_pow_right (by decide) hsome).trans (Nat.log2_self_le hpos.ne')
  · rw [Nat.div_lt_iff_lt_mul (Nat.two_pow_pos k), ← Nat.pow_add]
    exact Nat.lt_log2_self.trans_le (Nat.pow_le_pow_right (by decide) henough)

theorem le_roundedMantissa (em : ExtendedMantissa) : em.mantissa ≤ em.roundedMantissa := by
  obtain ⟨m, round, sticky⟩ := em
  cases round <;> cases sticky <;>
    simp [ExtendedMantissa.roundedMantissa, ExtendedMantissa.accuracy, Accuracy.roundToNearestEven]

/-- What is held is not rounded to zero. -/
theorem Held.exists_round {m : Nat} {e : Int} (h : Held m e) (s : Sign) (a : Accuracy) :
    ∃ m' e' hpos, roundWithAccuracy Format.binary64 s m e a = .finite s m' e' hpos ∧
      InRange m' e' := by
  have hfirst := h.inRange_shift a
  unfold roundWithAccuracy
  generalize shiftToTargetExponent Format.binary64 m e a = first at hfirst
  obtain ⟨em, e₁⟩ := first
  have hpos : 0 < em.roundedMantissa := hfirst.pos.trans_le (le_roundedMantissa em)
  have hlow : -1074 ≤ e₁ := hfirst.low
  -- A carry may have made the significand too long, so bits are dropped once more.
  have hsecond := Held.inRange_shift ⟨hpos, show _ ≤ _ + e₁ by omega⟩ .exact
  dsimp only
  rw [dif_neg hsecond.pos.ne']
  exact ⟨_, _, hsecond.pos, rfl, hsecond⟩

/-! ### Packing -/

/-- Something that is above zero. -/
def Above (u : UnpackedFloat) : Prop := ∃ p, rank? u = some p ∧ toLex (0, toLex (0, 0)) < p

theorem above_iff {u : UnpackedFloat} :
    Above u ↔ u = .infinity .positive ∨ ∃ m e hpos, u = .finite .positive m e hpos := by
  unfold Above
  rcases u with (_ | _) | _ | _ | ⟨_ | _, m, e, hpos⟩ <;>
    simp [rank?, Prod.Lex.toLex_lt_toLex]
  exact hpos

/-- Fields without a sign stand for something above zero, if for a number and not for zero. -/
theorem above_packComponents {e : BitVec Format.binary64.exponentBits}
    {m : BitVec Format.binary64.mantissaBitsWithoutImplicit} (hnumber : e = -1#_ → m = 0#_)
    (hzero : e = 0#_ → m ≠ 0#_) :
    Above (UnpackedFloat.unpack Format.binary64
      (packComponents Format.binary64 .positive e m)) := by
  rw [above_iff]
  have h := standsFor_unpack (packComponents Format.binary64 .positive e m)
  generalize UnpackedFloat.unpack Format.binary64 _ = u at h
  cases h with
  | infinity hsign _ _ =>
      rw [unpackSign_packComponents] at hsign
      exact Or.inl (by rw [← hsign]; rfl)
  | nan hexponent hmantissa =>
      rw [unpackExponent_packComponents] at hexponent
      rw [unpackMantissa_packComponents] at hmantissa
      exact absurd (hnumber hexponent) hmantissa
  | zero _ hexponent hmantissa =>
      rw [unpackExponent_packComponents] at hexponent
      rw [unpackMantissa_packComponents] at hmantissa
      exact absurd hmantissa (hzero hexponent)
  | subnormal hsign _ _ =>
      rw [unpackSign_packComponents] at hsign
      exact Or.inr ⟨_, _, _, by rw [← hsign]; rfl⟩
  | normal hsign _ _ =>
      rw [unpackSign_packComponents] at hsign
      exact Or.inr ⟨_, _, _, by rw [← hsign]; rfl⟩

/-- A number in range is not packed as zero. -/
theorem InRange.above_pack {m : Nat} {e : Int} (h : InRange m e) (hpos : 0 < m) :
    Above (UnpackedFloat.unpack Format.binary64
      (UnpackedFloat.pack Format.binary64 (.finite .positive m e hpos))) := by
  obtain ⟨-, hm, he⟩ := h
  unfold UnpackedFloat.pack
  dsimp only
  generalize hbiased : (e + (Format.binary64.exponentBias : Int) + (52 : Nat)).toNat = biased
  have hlow : 0 < biased := by
    have hbias : (Format.binary64.exponentBias : Int) = 1023 := rfl
    omega
  split
  · exact above_packComponents (fun _ => rfl) (fun hzero => absurd hzero (by decide))
  · rename_i hlarge
    have hhigh : biased % 2 ^ 11 = biased := Nat.mod_eq_of_lt (by omega)
    split
    · refine above_packComponents (fun hones => ?_) (fun hzero => ?_)
      · have hfield : biased % 2 ^ 11 = 2047 := congrArg BitVec.toNat hones
        omega
      · have hfield : biased % 2 ^ 11 = 0 := congrArg BitVec.toNat hzero
        omega
    · rename_i hbits
      have hshort : m < 2 ^ 52 := by
        have hlog : m.log2 < 53 := (Nat.log2_lt hpos.ne').mpr hm
        have hne : m.log2 + 1 ≠ 53 := hbits
        exact (Nat.log2_lt hpos.ne').mp (by omega)
      refine above_packComponents (fun hones => absurd hones (by decide)) (fun _ hzero => ?_)
      have hfield : m % 2 ^ 52 = 0 := congrArg BitVec.toNat hzero
      rw [Nat.mod_eq_of_lt hshort] at hfield
      omega

/-! ### Dividing -/

/-- The quotient of one and a double is held, before it is rounded. -/
theorem held_divCore {m : Nat} {e : Int} (h : InRange m e) (he : e ≤ 971) :
    Held (divCore Format.binary64 (2 ^ 52) (-52) m e).1
      (divCore Format.binary64 (2 ^ 52) (-52) m e).2.1 := by
  obtain ⟨hpos, hm, -⟩ := h
  have hlog : m.log2 < 53 := (Nat.log2_lt hpos.ne').mpr hm
  unfold divCore
  dsimp only
  rw [targetExponent_eq, totalExponent, totalExponent, Nat.log2_two_pow, Nat.shiftLeft_eq,
    ← Nat.pow_add]
  generalize ht : min (-52 - e) (max (((52 : Nat) : Int) + 1 + -52 - (m.log2 + 1 + e) - 53) (-1074)) = t
  generalize hk : (-52 - e - t).toNat = k
  have hquotient : 2 ^ (51 + k - m.log2) ≤ 2 ^ (52 + k) / m := by
    rw [Nat.le_div_iff_mul_le hpos]
    calc 2 ^ (51 + k - m.log2) * m
        ≤ 2 ^ (51 + k - m.log2) * 2 ^ (m.log2 + 1) :=
          Nat.mul_le_mul_left _ Nat.lt_log2_self.le
      _ = 2 ^ (52 + k) := by rw [← Nat.pow_add]; congr 1; omega
  have hpositive : 0 < 2 ^ (52 + k) / m := (Nat.two_pow_pos _).trans_le hquotient
  have hbits : 51 + k - m.log2 ≤ (2 ^ (52 + k) / m).log2 :=
    (Nat.le_log2 hpositive.ne').mpr hquotient
  exact ⟨hpositive, by omega⟩

/-- The parts that a pattern is unpacked to are in range. -/
theorem inRange_unpack {b : Pattern} {s : Sign} {m : Nat} {e : Int} {hpos : 0 < m}
    (h : UnpackedFloat.unpack Format.binary64 b = .finite s m e hpos) : InRange m e ∧ e ≤ 971 := by
  have hmantissa : (unpackMantissa b).toNat < 2 ^ 52 := (unpackMantissa b).isLt
  have hexponent : (unpackExponent b).toNat < 2 ^ 11 := (unpackExponent b).isLt
  have hbias : (Format.binary64.exponentBias : Int) = 1023 := rfl
  unfold UnpackedFloat.unpack at h
  dsimp only at h
  split at h
  · split at h <;> cases h
  · rename_i hnotOnes
    split at h
    · rename_i hzero
      split at h
      · cases h
      · cases h
        have hfield : (unpackExponent b).toNat = 0 := congrArg BitVec.toNat hzero
        exact ⟨⟨hpos, by omega, by omega⟩, by omega⟩
    · rename_i hnotZero
      cases h
      have hone := toNat_one_append (unpackMantissa b)
      have hlow : (unpackExponent b).toNat ≠ 0 := fun hc => hnotZero (BitVec.eq_of_toNat_eq hc)
      have hhigh : (unpackExponent b).toNat ≠ 2047 := fun hc => hnotOnes (BitVec.eq_of_toNat_eq hc)
      exact ⟨⟨hpos, by omega, by omega⟩, by omega⟩

end Double

open Double
open Float.Model (UnpackedFloat Format)
open Float.Model.UnpackedFloat (divCore)

theorem Scalar.lt_zero_iff {x : Float} : Scalar.lt Scalar.zero x = true ↔ Above x.toModel.unpack := by
  rw [lt_iff_rank?]
  refine ⟨fun h => ?_, fun h => ?_⟩
  · obtain ⟨p, q, hp, hq, hlt⟩ := h
    rw [rank?_zero, Option.some.injEq] at hp
    exact ⟨q, hq, hp ▸ hlt⟩
  · obtain ⟨q, hq, hlt⟩ := h
    exact ⟨_, q, rank?_zero, hq, hlt⟩

/-- **The inverse of a finite number above zero is above zero.** -/
theorem Scalar.inverse_pos {x : Float} (hfinite : x.isFinite = true)
    (hpos : Scalar.lt Scalar.zero x = true) : Scalar.lt Scalar.zero (Scalar.one / x) = true := by
  have hone : (Scalar.one : Float).toModel.unpack = .finite .positive (2 ^ 52) (-52) (by decide) := rfl
  rw [Scalar.lt_zero_iff, above_iff] at hpos
  rcases hpos with hx | ⟨m, e, hm, hx⟩
  · have hinfinite : x.isFinite = false := by
      show x.toModel.unpack.isFinite = false
      rw [hx]
      rfl
    rw [hinfinite] at hfinite
    simp at hfinite
  · obtain ⟨hrange, he⟩ := inRange_unpack hx
    have hunpack : (Scalar.one / x).toModel.unpack
        = UnpackedFloat.unpack Format.binary64 (UnpackedFloat.pack Format.binary64
            (UnpackedFloat.div Format.binary64 (Scalar.one : Float).toModel.unpack x.toModel.unpack)) :=
      rfl
    obtain ⟨m', e', hm', hround, hrange'⟩ :=
      (held_divCore hrange he).exists_round .positive (divCore Format.binary64 (2 ^ 52) (-52) m e).2.2
    have hdiv : UnpackedFloat.div Format.binary64 (Scalar.one : Float).toModel.unpack x.toModel.unpack
        = .finite .positive m' e' hm' := by
      rw [hone, hx]
      exact hround
    rw [Scalar.lt_zero_iff, hunpack, hdiv]
    exact hrange'.above_pack hm'

/-- What is at a finite distance weighs something. -/
theorem Learner.weight_pos {d : Float} (h : d.isFinite = true) :
    Scalar.lt Scalar.zero (weight d) = true := by
  have hleast : Scalar.lt Scalar.zero (leastDistance : Float) = true := by decide
  unfold weight Scalar.greater
  split
  · exact Scalar.inverse_pos (by decide) hleast
  · rename_i hnear
    refine Scalar.inverse_pos h ?_
    -- A finite distance that is not below the least one is no lower in rank.
    obtain ⟨p, hp, hlow⟩ := Scalar.lt_zero_iff.mp hleast
    obtain ⟨q, hq⟩ : ∃ q, rank? d.toModel.unpack = some q := by
      cases hd : d.toModel.unpack with
      | infinity s => cases s <;> exact ⟨_, rfl⟩
      | notANumber =>
          have hnone : d.toModel.unpack.isFinite = true := h
          rw [hd] at hnone
          cases hnone
      | zero s => exact ⟨_, rfl⟩
      | finite s m e hpos => cases s <;> exact ⟨_, rfl⟩
    have hle : p ≤ q := not_lt.mp fun hlt => hnear (Scalar.lt_iff_rank?.mpr ⟨q, p, hq, hp, hlt⟩)
    exact Scalar.lt_zero_iff.mpr ⟨q, hq, hlow.trans_le hle⟩

end GestureStore
