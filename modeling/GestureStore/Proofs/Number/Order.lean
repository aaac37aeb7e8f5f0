/-
Numbers above zero are in order.

Comparing doubles is no total order: nothing compares with what is no number, and two
zeros differ in their bits alone.  What is ranked are weights above zero, and among
those neither happens.  So that this need not be assumed, it is traced to the bits: a
pattern is determined by what it stands for (`StandsFor.unique`), and of two things
patterns stand for one is less exactly if it has the lower rank (`lt_iff_rank?`).

`Scalar.Ordered` is all that is used of it.
-/
import GestureStore.Feature.Scalar
import Mathlib

namespace GestureStore

/-- Scalars that a comparison puts in order, as far as they are above zero. -/
class Scalar.Ordered (α : Type) [Scalar α] : Prop where
  /-- Nothing is less than itself. -/
  irrefl (x : α) : Scalar.lt x x = false
  /-- What is less than something less is less. -/
  trans {x y z : α} (hxy : Scalar.lt x y = true) (hyz : Scalar.lt y z = true) :
    Scalar.lt x z = true
  /-- Of two different scalars above zero one is less. -/
  trichotomy {x y : α} (hx : Scalar.lt Scalar.zero x = true) (hy : Scalar.lt Scalar.zero y = true)
    (hxy : Scalar.lt x y = false) (hyx : Scalar.lt y x = false) : x = y

/-- Of two scalars not both are less than the other. -/
theorem Scalar.Ordered.asymm [Scalar α] [Scalar.Ordered α] {x y : α} (h : Scalar.lt x y = true) :
    ¬ Scalar.lt y x = true := by
  intro hyx
  have hxx := Scalar.Ordered.trans h hyx
  rw [Scalar.Ordered.irrefl] at hxx
  simp at hxx

namespace Double

open Float.Model (UnpackedFloat Format)
open Float.Model.UnpackedFloat (Sign unpackSign unpackExponent unpackMantissa)

/-! ### What a pattern stands for -/

/-- The bits of a double. -/
abbrev Pattern : Type := BitVec Format.binary64.numBits

/-- What the fields of a pattern make it stand for. -/
inductive StandsFor (b : Pattern) : UnpackedFloat → Prop where
  | infinity {s : Sign} (hsign : Sign.ofBitVec (unpackSign b) = s)
      (hexponent : unpackExponent b = -1#_) (hmantissa : unpackMantissa b = 0#_) :
      StandsFor b (.infinity s)
  | nan (hexponent : unpackExponent b = -1#_) (hmantissa : unpackMantissa b ≠ 0#_) :
      StandsFor b .notANumber
  | zero {s : Sign} (hsign : Sign.ofBitVec (unpackSign b) = s)
      (hexponent : unpackExponent b = 0#_) (hmantissa : unpackMantissa b = 0#_) :
      StandsFor b (.zero s)
  | subnormal {s : Sign} {m : Nat} {e : Int} {hpos : 0 < m}
      (hsign : Sign.ofBitVec (unpackSign b) = s) (hexponent : unpackExponent b = 0#_)
      (hmantissa : (unpackMantissa b).toNat = m) : StandsFor b (.finite s m e hpos)
  | normal {s : Sign} {m : Nat} {e : Int} {hpos : 0 < m}
      (hsign : Sign.ofBitVec (unpackSign b) = s)
      (hexponent : ((unpackExponent b).toNat : Int) = e + 1075)
      (hmantissa : 2 ^ 52 + (unpackMantissa b).toNat = m) : StandsFor b (.finite s m e hpos)

theorem toNat_one_append (m : BitVec 52) : (1#1 ++ m).toNat = 2 ^ 52 + m.toNat := by
  rw [BitVec.toNat_append, ← Nat.shiftLeft_add_eq_or_of_lt m.isLt]
  rfl

theorem standsFor_unpack (b : Pattern) :
    StandsFor b (UnpackedFloat.unpack Format.binary64 b) := by
  unfold UnpackedFloat.unpack
  dsimp only
  split
  · rename_i hexponent
    split
    · rename_i hmantissa
      exact .infinity rfl hexponent hmantissa
    · rename_i hmantissa
      exact .nan hexponent hmantissa
  · split
    · rename_i hexponent
      split
      · rename_i hmantissa
        exact .zero rfl hexponent hmantissa
      · exact .subnormal rfl hexponent rfl
    · refine .normal rfl ?_ (toNat_one_append _).symm
      have hbias : Format.binary64.exponentBias = 1023 := rfl
      rw [hbias]
      omega

/-- A pattern is made up of its three fields. -/
theorem eq_of_fields {b c : Pattern}
    (hsign : Sign.ofBitVec (unpackSign b) = Sign.ofBitVec (unpackSign c))
    (hexponent : unpackExponent b = unpackExponent c)
    (hmantissa : unpackMantissa b = unpackMantissa c) : b = c := by
  have hsign : unpackSign b = unpackSign c := by
    rcases BitVec.eq_zero_or_eq_one (unpackSign b) with hb | hb <;>
      rcases BitVec.eq_zero_or_eq_one (unpackSign c) with hc | hc <;>
      simp [hb, hc, Sign.ofBitVec] at hsign ⊢
  apply BitVec.eq_of_getLsbD_eq
  intro i hi
  have hs := congrArg (fun v => v.getLsbD (i - 63)) hsign
  have he := congrArg (fun v => v.getLsbD (i - 52)) hexponent
  have hm := congrArg (fun v => v.getLsbD i) hmantissa
  simp [unpackSign, unpackExponent, unpackMantissa] at hs he hm
  by_cases hlow : i ≤ 51
  · simpa [hlow] using hm
  · by_cases hmid : i ≤ 62
    · simpa [hmid, show 52 + (i - 52) = i by omega] using he
    · have hlast : i = 63 := by
        change i < 64 at hi
        omega
      simpa [hlast] using hs

theorem StandsFor.unique {b c : Pattern} {u : UnpackedFloat}
    (hb : StandsFor b u) (hc : StandsFor c u) (hvalid : Format.binary64.Valid b)
    (hvalid' : Format.binary64.Valid c) : b = c := by
  have hlow := (unpackMantissa b).isLt
  have hlow' := (unpackMantissa c).isLt
  cases hb with
  | infinity hsign hexponent hmantissa =>
      cases hc with
      | infinity hsign' hexponent' hmantissa' =>
          exact eq_of_fields (hsign.trans hsign'.symm) (hexponent.trans hexponent'.symm)
            (hmantissa.trans hmantissa'.symm)
  | nan hexponent hmantissa =>
      cases hc with
      | nan hexponent' hmantissa' =>
          rw [hvalid.eq_packedNaN hexponent hmantissa, hvalid'.eq_packedNaN hexponent' hmantissa']
  | zero hsign hexponent hmantissa =>
      cases hc with
      | zero hsign' hexponent' hmantissa' =>
          exact eq_of_fields (hsign.trans hsign'.symm) (hexponent.trans hexponent'.symm)
            (hmantissa.trans hmantissa'.symm)
  | subnormal hsign hexponent hmantissa =>
      cases hc with
      | subnormal hsign' hexponent' hmantissa' =>
          exact eq_of_fields (hsign.trans hsign'.symm) (hexponent.trans hexponent'.symm)
            (BitVec.eq_of_toNat_eq (hmantissa.trans hmantissa'.symm))
      | normal hsign' hexponent' hmantissa' =>
          change _ < 2 ^ 52 at hlow
          omega
  | normal hsign hexponent hmantissa =>
      cases hc with
      | subnormal hsign' hexponent' hmantissa' =>
          change _ < 2 ^ 52 at hlow'
          omega
      | normal hsign' hexponent' hmantissa' =>
          exact eq_of_fields (hsign.trans hsign'.symm) (BitVec.eq_of_toNat_eq (by omega))
            (BitVec.eq_of_toNat_eq (by omega))

/-! ### What is less -/

/-- Where a number stands: by its kind and sign, then by exponent and significand. -/
def rank? : UnpackedFloat → Option (Int ×ₗ Int ×ₗ Int)
  | .notANumber => none
  | .infinity .negative => some (toLex (-2, toLex (0, 0)))
  | .finite .negative m e _ => some (toLex (-1, toLex (-e, -m)))
  | .zero _ => some (toLex (0, toLex (0, 0)))
  | .finite .positive m e _ => some (toLex (1, toLex (e, m)))
  | .infinity .positive => some (toLex (2, toLex (0, 0)))

theorem then_eq_lt_iff {e f : Int} {m n : Nat} :
    (compare e f).then (compare m n) = .lt ↔ e < f ∨ e = f ∧ m < n := by
  rw [Ordering.then_eq_lt, Int.compare_eq_lt, Int.compare_eq_eq, Nat.compare_eq_lt]

theorem then_eq_gt_iff {e f : Int} {m n : Nat} :
    (compare e f).then (compare m n) = .gt ↔ f < e ∨ e = f ∧ n < m := by
  rw [Ordering.then_eq_gt, Int.compare_eq_gt, Int.compare_eq_eq, Nat.compare_eq_gt]

theorem lt_iff_rank? {u v : UnpackedFloat} :
    u.lt v = true ↔ ∃ p q, rank? u = some p ∧ rank? v = some q ∧ p < q := by
  unfold UnpackedFloat.lt
  rcases u with (_ | _) | _ | s | ⟨_ | _, m, e, hm⟩ <;>
    rcases v with (_ | _) | _ | t | ⟨_ | _, n, f, hn⟩ <;>
    simp [UnpackedFloat.compare, rank?, Prod.Lex.toLex_lt_toLex, then_eq_lt_iff, then_eq_gt_iff]
  -- What is left is that the negative infinity is less than the positive one.
  rfl

/-- Only the two zeros share a rank. -/
theorem eq_of_rank? {u v : UnpackedFloat} {p : Int ×ₗ Int ×ₗ Int} (hu : rank? u = some p)
    (hv : rank? v = some p) (hp : p ≠ toLex (0, toLex (0, 0))) : u = v := by
  rcases u with (_ | _) | _ | s | ⟨_ | _, m, e, hm⟩ <;>
    rcases v with (_ | _) | _ | t | ⟨_ | _, n, f, hn⟩ <;>
    simp only [rank?, Option.some.injEq, reduceCtorEq] at hu hv
  all_goals
    subst hu
    have hfields := congrArg ofLex hv
    simp [Prod.ext_iff] at hfields hp ⊢
  all_goals omega

end Double

open Double

theorem Scalar.lt_iff_rank? {x y : Float} :
    Scalar.lt x y = true ↔
      ∃ p q, rank? x.toModel.unpack = some p ∧ rank? y.toModel.unpack = some q ∧ p < q := by
  rw [← Double.lt_iff_rank?]
  show decide (x < y) = true ↔ _
  rw [decide_eq_true_iff]
  show decide (x.toModel < y.toModel) = true ↔ _
  rw [decide_eq_true_iff]
  rfl

theorem rank?_zero : rank? (Scalar.zero : Float).toModel.unpack = some (toLex (0, toLex (0, 0))) :=
  rfl

instance : Scalar.Ordered Float where
  irrefl x := by
    rw [Bool.eq_false_iff]
    intro h
    obtain ⟨p, q, hp, hq, hlt⟩ := Scalar.lt_iff_rank?.mp h
    rw [hp, Option.some.injEq] at hq
    exact hlt.ne hq
  trans := by
    intro x y z hxy hyz
    obtain ⟨p, q, hp, hq, hpq⟩ := Scalar.lt_iff_rank?.mp hxy
    obtain ⟨q', r, hq', hr, hqr⟩ := Scalar.lt_iff_rank?.mp hyz
    rw [hq, Option.some.injEq] at hq'
    exact Scalar.lt_iff_rank?.mpr ⟨p, r, hp, hr, hpq.trans (hq' ▸ hqr)⟩
  trichotomy := by
    intro x y hx hy hxy hyx
    obtain ⟨o, p, ho, hp, hop⟩ := Scalar.lt_iff_rank?.mp hx
    obtain ⟨-, q, -, hq, -⟩ := Scalar.lt_iff_rank?.mp hy
    rw [rank?_zero, Option.some.injEq] at ho
    have hpq : p = q := by
      refine le_antisymm (not_lt.mp fun hlt => ?_) (not_lt.mp fun hlt => ?_)
      · rw [Scalar.lt_iff_rank?.mpr ⟨q, p, hq, hp, hlt⟩] at hyx
        simp at hyx
      · rw [Scalar.lt_iff_rank?.mpr ⟨p, q, hp, hq, hlt⟩] at hxy
        simp at hxy
    have hunpack : x.toModel.unpack = y.toModel.unpack :=
      eq_of_rank? hp (hpq ▸ hq) (ho ▸ hop.ne')
    have hy' : StandsFor y.toModel.toBits.toBitVec x.toModel.unpack := by
      rw [hunpack]
      exact standsFor_unpack _
    have hbits := (standsFor_unpack _).unique hy' x.toModel.valid y.toModel.valid
    obtain ⟨⟨xbits, hx⟩⟩ := x
    obtain ⟨⟨ybits, hy⟩⟩ := y
    have : xbits = ybits := UInt64.toBitVec_inj.mp hbits
    subst this
    rfl

end GestureStore
