/-
Texts that can be encoded.

A text is plain if there is no surrogate in it; those are the texts that have a UTF-8
form.  Whatever is put together from literals, digits and plain texts is plain.
-/
import GestureStore.Text
import Mathlib.Data.List.Basic

namespace GestureStore

namespace CodePoint

theorem isSurrogate_eq_false_iff {p : CodePoint} :
    p.isSurrogate = false ↔ p.val < 0xD800 ∨ 0xE000 ≤ p.val := by
  simp only [isSurrogate, Bool.and_eq_false_iff, decide_eq_false_iff_not]
  omega

/-- A character is no surrogate. -/
@[simp] theorem isSurrogate_ofChar (c : Char) : (ofChar c).isSurrogate = false := by
  have hvalid := c.valid
  simp only [UInt32.isValidChar, Nat.isValidChar] at hvalid
  rw [isSurrogate_eq_false_iff]
  show c.val.toNat < 0xD800 ∨ 0xE000 ≤ c.val.toNat
  omega

end CodePoint

namespace Text

/-- There is no surrogate in the text. -/
def Plain (t : Text) : Prop := ∀ p ∈ t, p.isSurrogate = false

theorem Plain.subset {s t : Text} (h : Plain t) (hs : s ⊆ t) : Plain s := fun p hp => h p (hs hp)

@[simp] theorem plain_nil : Plain [] := by simp [Plain]

@[simp] theorem plain_cons {p : CodePoint} {t : Text} :
    Plain (p :: t) ↔ p.isSurrogate = false ∧ Plain t := List.forall_mem_cons

@[simp] theorem plain_append {s t : Text} : Plain (s ++ t) ↔ Plain s ∧ Plain t :=
  List.forall_mem_append

@[simp] theorem plain_map_ofChar (cs : List Char) : Plain (cs.map CodePoint.ofChar) := by
  intro p hp
  obtain ⟨c, -, rfl⟩ := List.mem_map.mp hp
  exact CodePoint.isSurrogate_ofChar c

@[simp] theorem plain_of (s : String) : Plain (Text.of s) := plain_map_ofChar _

@[simp] theorem plain_natural (n : Nat) : Plain (natural n) := plain_map_ofChar _

@[simp] theorem plain_replicate (n : Nat) (c : Char) :
    Plain (List.replicate n (CodePoint.ofChar c)) := by
  intro p hp
  rw [List.eq_of_mem_replicate hp]
  exact CodePoint.isSurrogate_ofChar c

@[simp] theorem plain_integer (i : Int) : Plain (integer i) := by
  cases i with
  | ofNat n => exact plain_natural n
  | negSucc n => exact plain_cons.mpr ⟨CodePoint.isSurrogate_ofChar _, plain_natural _⟩

@[simp] theorem plain_paddedNatural (width n : Nat) : Plain (paddedNatural width n) := by
  simp [paddedNatural]

theorem plain_hex (digits : List Char) (width n : Nat) : Plain (hex digits width n) := by
  induction width generalizing n with
  | zero => exact plain_nil
  | succ width ih => simp [hex, ih]

@[simp] theorem plain_lowerHex (width n : Nat) : Plain (lowerHex width n) := plain_hex _ width n

theorem plain_padRight {t : Text} (h : Plain t) (width : Nat) : Plain (t.padRight width) := by
  simp [padRight, h]

theorem plain_ite {c : Prop} [Decidable c] {s t : Text} (hs : c → Plain s) (ht : ¬ c → Plain t) :
    Plain (if c then s else t) := by
  by_cases h : c
  · rw [if_pos h]
    exact hs h
  · rw [if_neg h]
    exact ht h

theorem plain_flatMap {t : Text} {f : CodePoint → Text} (h : ∀ p ∈ t, Plain (f p)) :
    Plain (t.flatMap f) := by
  intro q hq
  obtain ⟨p, hp, hqp⟩ := List.mem_flatMap.mp hq
  exact h p hp q hqp

theorem plain_joinWith {separator : Text} (hseparator : Plain separator) {ts : List Text}
    (h : ∀ t ∈ ts, Plain t) : Plain (joinWith separator ts) := by
  induction ts with
  | nil => exact plain_nil
  | cons t rest ih =>
      cases rest with
      | nil => exact h t (by simp)
      | cons u rest =>
          rw [joinWith, plain_append, plain_append]
          · exact ⟨⟨h t (by simp), hseparator⟩, ih fun v hv => h v (by simp [hv])⟩
          · simp

end Text
end GestureStore
