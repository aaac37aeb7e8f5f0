/-
What the decoder refuses, by what is wrong with it.

Decoding accepts exactly what encoding produces, so all else is refused; here is what
else there is.  The bits of a number can be spread over more bytes than it needs, or over
as many as it needs although it is a surrogate or beyond the last code point.  These get
as far as their second byte, which is out of the range that the lead byte sets for it, if
the lead byte is one at all.  A character can also be cut off, at the end of the bytes or
in front of one that does not belong to it.  Its bytes are fine, but they lead to no other
character.

It does not matter what comes before, as long as it is the form of a text.
-/
import GestureStore.Proofs.Text.Utf8
import Mathlib.Algebra.Group.Nat.Defs

namespace GestureStore
namespace Utf8

/-! ### Bytes that are no text -/

/-- What a lead byte is above the bits it carries, by the number of bytes behind it. -/
def mark : Nat → Nat
  | 0 => 0
  | 1 => 0xC0
  | 2 => 0xE0
  | 3 => 0xF0
  | 4 => 0xF8
  | _ => 0xFC

/-- The low bits of a number, six to a byte. -/
def trail : Nat → Nat → Bytes
  | 0, _ => []
  | k + 1, n => UInt8.ofNat (0x80 + n / 64 ^ k % 64) :: trail k n

/-- The bits of a number in a lead byte and so many more, be it their form or not. -/
def spread (k n : Nat) : Bytes := UInt8.ofNat (mark k + n / 64 ^ k) :: trail k n

/-- The numbers below this have few enough bits for a lead byte and so many more. -/
def room : Nat → Nat
  | 0 => 0x80
  | 1 => 0x800
  | 2 => 0x10000
  | 3 => 0x200000
  | 4 => 0x4000000
  | _ => 0x80000000

/-- Bytes that begin with something that is nearly a character. -/
inductive Malformed : Bytes → Prop
  /-- A number in more bytes than it needs. -/
  | overlong {k n : Nat} {rest : Bytes} (hk : k < 5) (hroom : n < room k) :
      Malformed (spread (k + 1) n ++ rest)
  /-- A surrogate. -/
  | surrogate {n : Nat} {rest : Bytes} (hlow : 0xD800 ≤ n) (hhigh : n < 0xE000) :
      Malformed (spread 2 n ++ rest)
  /-- A number beyond the last code point. -/
  | beyond {k n : Nat} {rest : Bytes} (hk : k < 6) (hlow : 0x110000 ≤ n) (hroom : n < room k) :
      Malformed (spread k n ++ rest)
  /-- A character without its last bytes, and nothing behind it that could be one of them. -/
  | truncated {p : CodePoint} {cut lost rest : Bytes} (hp : p.isSurrogate = false)
      (hform : encodeOne p = cut ++ lost) (hcut : cut ≠ []) (hlost : lost ≠ [])
      (hnext : ∀ b ∈ rest.head?, b.toNat < 0x80 ∨ 0xBF < b.toNat) : Malformed (cut ++ rest)

/-- The form of a character is its number spread over as many bytes as it needs. -/
theorem exists_encodeOne_eq_spread (p : CodePoint) :
    ∃ k, p.val < room k ∧ (∀ j < k, room j ≤ p.val) ∧ encodeOne p = spread k p.val := by
  unfold encodeOne
  have hlast := p.isLt
  by_cases h1 : p.val < 0x80
  · refine ⟨0, h1, by omega, ?_⟩
    simp [h1, spread, trail, mark]
  by_cases h2 : p.val < 0x800
  · refine ⟨1, h2, fun j hj => ?_, ?_⟩
    · obtain rfl : j = 0 := by omega
      exact Nat.le_of_not_lt h1
    · simp [h1, h2, spread, trail, mark]
  by_cases h3 : p.val < 0x10000
  · refine ⟨2, h3, fun j hj => ?_, ?_⟩
    · rcases (by omega : j = 0 ∨ j = 1) with rfl | rfl
      · exact Nat.le_of_not_lt h1
      · exact Nat.le_of_not_lt h2
    · simp [h1, h2, h3, spread, trail, mark]
  · refine ⟨3, by simp only [room]; omega, fun j hj => ?_, ?_⟩
    · rcases (by omega : j = 0 ∨ j = 1 ∨ j = 2) with rfl | rfl | rfl
      · exact Nat.le_of_not_lt h1
      · exact Nat.le_of_not_lt h2
      · exact Nat.le_of_not_lt h3
    · simp [h1, h2, h3, spread, trail, mark]

/-! ### Lead bytes and second bytes -/

variable {position : Nat} {sofar : Text} {rest : Bytes} {t : Text}

theorem not_decodes_of_lead {k n m : Nat} (hm : mark k + n / 64 ^ k = m) (hbyte : m < 256)
    (hlead : lead? m = none) : decodeFrom position none sofar (spread k n ++ rest) ≠ .ok t := by
  intro h
  have hlead' : lead? (UInt8.ofNat (mark k + n / 64 ^ k)).toNat = none := by
    rw [hm, byte_toNat hbyte]
    exact hlead
  simp only [spread, List.cons_append, decodeFrom, hlead'] at h
  cases h

/-- The lead byte sets the range of the byte behind it. -/
theorem not_decodes_of_second {k n m : Nat} {l : Lead} (hm : mark (k + 1) + n / 64 ^ (k + 1) = m)
    (hbyte : m < 256) (hlead : lead? m = some l) (hmore : l.more ≠ 0)
    (hrange : 0x80 + n / 64 ^ k % 64 < l.low ∨ l.high < 0x80 + n / 64 ^ k % 64) :
    decodeFrom position none sofar (spread (k + 1) n ++ rest) ≠ .ok t := by
  intro h
  have hlead' : lead? (UInt8.ofNat (mark (k + 1) + n / 64 ^ (k + 1))).toNat = some l := by
    rw [hm, byte_toNat hbyte]
    exact hlead
  unfold spread at h
  rw [List.cons_append, decodeFrom_lead hlead' hmore] at h
  obtain ⟨_, _, hbytes, hlow, hhigh⟩ := decodeFrom_pending h
  obtain ⟨rfl, -⟩ := List.cons.inj hbytes
  rw [byte_toNat (by omega)] at hlow hhigh
  simp only at hlow hhigh
  omega

theorem not_decodes_overlong {k n : Nat} (hk : k < 5) (hroom : n < room k) :
    decodeFrom position none sofar (spread (k + 1) n ++ rest) ≠ .ok t := by
  match k, hk with
  | 0, _ =>
      simp only [room] at hroom
      have hlead : mark 1 + n / 64 ^ 1 = 0xC0 + n / 64 := rfl
      exact not_decodes_of_lead hlead (by omega) (lead?_none (by omega))
  | 1, _ =>
      simp only [room] at hroom
      have hlead : mark 2 + n / 64 ^ 2 = 0xE0 := by simp only [mark]; omega
      exact not_decodes_of_second hlead (by decide) rfl (by decide) (Or.inl (by simp only; omega))
  | 2, _ =>
      simp only [room] at hroom
      have hlead : mark 3 + n / 64 ^ 3 = 0xF0 := by simp only [mark]; omega
      exact not_decodes_of_second hlead (by decide) rfl (by decide) (Or.inl (by simp only; omega))
  | 3, _ =>
      simp only [room] at hroom
      have hlead : mark 4 + n / 64 ^ 4 = 0xF8 := by simp only [mark]; omega
      exact not_decodes_of_lead hlead (by decide) rfl
  | 4, _ =>
      simp only [room] at hroom
      have hlead : mark 5 + n / 64 ^ 5 = 0xFC := by simp only [mark]; omega
      exact not_decodes_of_lead hlead (by decide) rfl

theorem not_decodes_surrogate {n : Nat} (hlow : 0xD800 ≤ n) (hhigh : n < 0xE000) :
    decodeFrom position none sofar (spread 2 n ++ rest) ≠ .ok t := by
  have hlead : mark 2 + n / 64 ^ 2 = 0xED := by simp only [mark]; omega
  exact not_decodes_of_second hlead (by decide) rfl (by decide) (Or.inr (by simp only; omega))

theorem not_decodes_beyond {k n : Nat} (hk : k < 6) (hlow : 0x110000 ≤ n) (hroom : n < room k) :
    decodeFrom position none sofar (spread k n ++ rest) ≠ .ok t := by
  match k, hk with
  | 0, _ | 1, _ | 2, _ =>
      simp only [room] at hroom
      omega
  | 3, _ =>
      simp only [room] at hroom
      by_cases hlast : n < 0x140000
      · have hlead : mark 3 + n / 64 ^ 3 = 0xF4 := by simp only [mark]; omega
        exact not_decodes_of_second hlead (by decide) rfl (by decide) (Or.inr (by simp only; omega))
      · have hlead : mark 3 + n / 64 ^ 3 = 0xF0 + n / 64 ^ 3 := rfl
        exact not_decodes_of_lead hlead (by omega) (lead?_none (by omega))
  | 4, _ =>
      simp only [room] at hroom
      have hlead : mark 4 + n / 64 ^ 4 = 0xF8 + n / 64 ^ 4 := rfl
      exact not_decodes_of_lead hlead (by omega) (lead?_none (by omega))
  | 5, _ =>
      simp only [room] at hroom
      have hlead : mark 5 + n / 64 ^ 5 = 0xFC + n / 64 ^ 5 := rfl
      exact not_decodes_of_lead hlead (by omega) (lead?_none (by omega))

/-! ### Characters that are cut off -/

/-- No form of a character begins with the form of another one. -/
theorem eq_nil_of_encodeOne_append {p q : CodePoint} (hp : p.isSurrogate = false)
    (hq : q.isSurrogate = false) {more : Bytes} (h : encodeOne p = encodeOne q ++ more) :
    more = [] := by
  have hone : decodeFrom 0 none [] (encodeOne p ++ []) = .ok [p] := by
    rw [decodeFrom_encodeOne hp]
    rfl
  rw [List.append_nil, h, decodeFrom_encodeOne hq] at hone
  obtain ⟨u, hu, -, hform⟩ := decodeFrom_eq_ok _ more rfl _ _ _ hone
  obtain ⟨-, hnil⟩ := List.cons.inj hu
  obtain rfl : u = [] := hnil.symm
  exact hform.symm

theorem mem_trail {k n : Nat} {b : UInt8} (h : b ∈ trail k n) :
    0x80 ≤ b.toNat ∧ b.toNat ≤ 0xBF := by
  induction k with
  | zero => simp [trail] at h
  | succ k ih =>
      rcases List.mem_cons.mp h with rfl | h
      · rw [byte_toNat (by omega)]
        omega
      · exact ih h

/-- Behind the first byte of a form there are none that could begin one. -/
theorem mem_tail_encodeOne {p : CodePoint} {b : UInt8} (h : b ∈ (encodeOne p).tail) :
    0x80 ≤ b.toNat ∧ b.toNat ≤ 0xBF := by
  obtain ⟨k, -, -, hform⟩ := exists_encodeOne_eq_spread p
  rw [hform] at h
  exact mem_trail h

theorem not_decodes_truncated {p : CodePoint} {cut lost : Bytes} (hp : p.isSurrogate = false)
    (hform : encodeOne p = cut ++ lost) (hcut : cut ≠ []) (hlost : lost ≠ [])
    (hnext : ∀ b ∈ rest.head?, b.toNat < 0x80 ∨ 0xBF < b.toNat) :
    decodeFrom position none sofar (cut ++ rest) ≠ .ok t := by
  intro h
  have hnot : ∀ (q : CodePoint) (more : Bytes), q.isSurrogate = false → cut ≠ encodeOne q ++ more := by
    rintro q more hq rfl
    rw [List.append_assoc] at hform
    exact hlost (List.append_eq_nil_iff.mp (eq_nil_of_encodeOne_append hp hq hform)).2
  obtain ⟨b, cut, rfl⟩ := List.exists_cons_of_ne_nil hcut
  obtain ⟨q, after, hq, hsplit⟩ := decodeFrom_cons h
  replace hsplit : (b :: cut) ++ rest = encodeOne q ++ after := hsplit
  rcases List.append_eq_append_iff.mp hsplit with ⟨more, hq', rfl⟩ | ⟨more, hcut', -⟩
  · -- What is begun goes on as another character, so the next byte has to be one of its own.
    cases more with
    | nil => exact hnot q [] hq (by rw [hq', List.append_nil, List.append_nil])
    | cons c more =>
        have hc : c ∈ (encodeOne q).tail := by
          rw [hq']
          simp
        have hrange := mem_tail_encodeOne hc
        have hout := hnext c rfl
        omega
  · exact hnot q more hq hcut'

/-! ### Behind a text -/

/-- **What is malformed is refused, whatever text comes before it.** -/
theorem Malformed.refused {m : Bytes} (hm : Malformed m) (ht : t.Plain) :
    ∃ e, decode (t.flatMap encodeOne ++ m) = .error e := by
  cases h : decode (t.flatMap encodeOne ++ m) with
  | error e => exact ⟨e, rfl⟩
  | ok u =>
      unfold decode at h
      rw [decodeFrom_flatMap t ht] at h
      exfalso
      cases hm with
      | overlong hk hroom => exact not_decodes_overlong hk hroom h
      | surrogate hlow hhigh => exact not_decodes_surrogate hlow hhigh h
      | beyond hk hlow hroom => exact not_decodes_beyond hk hlow hroom h
      | truncated hp hform hcut hlost hnext =>
          exact not_decodes_truncated hp hform hcut hlost hnext h

end Utf8
end GestureStore
