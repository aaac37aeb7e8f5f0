/-
UTF-8 gives every text without surrogates exactly one form.

The decoder works byte by byte and remembers what the lead byte promised.  Seen one
character at a time it has a simple law: from between two characters it gets past
the form of a character that can be encoded, and past nothing else.  That a lead
byte narrows the range of the byte behind it is what keeps over-long forms,
surrogates and numbers beyond the last code point out, so in the backward direction
every one of these bounds is used.
-/
import GestureStore.Proofs.Text.Plain
import GestureStore.Text.Utf8
import Mathlib.Data.List.TakeWhile

namespace GestureStore
namespace Utf8

/-! ### What is encodable -/

theorem firstSurrogates_eq_none_iff {t : Text} :
    firstSurrogates t = none ↔ t.Plain := by
  have hdrop : t.dropWhile (fun p => !p.isSurrogate) = [] ↔ t.Plain := by
    rw [List.dropWhile_eq_nil_iff, Text.Plain]
    simp
  rw [← hdrop, firstSurrogates]
  cases t.dropWhile (fun p => !p.isSurrogate) with
  | nil => simp
  | cons p rest => simp

theorem encode_eq_ok_iff {t : Text} {b : Bytes} :
    encode t = .ok b ↔ t.Plain ∧ t.flatMap encodeOne = b := by
  rw [encode, ← firstSurrogates_eq_none_iff]
  cases firstSurrogates t with
  | none => simp
  | some e => simp

/-! ### Lead bytes -/

theorem lead?_one {b : Nat} (h : b < 0x80) : lead? b = some ⟨0, 0x80, 0xBF, b⟩ := by
  rw [lead?, if_pos h]

theorem lead?_two {b : Nat} (hlow : 0xC2 ≤ b) (hhigh : b < 0xE0) :
    lead? b = some ⟨1, 0x80, 0xBF, b - 0xC0⟩ := by
  rw [lead?, if_neg (by omega), if_neg (by omega), if_pos hhigh]

theorem lead?_three {b : Nat} (hlow : 0xE0 ≤ b) (hhigh : b < 0xF0) :
    lead? b = some ⟨2, if b = 0xE0 then 0xA0 else 0x80, if b = 0xED then 0x9F else 0xBF,
      b - 0xE0⟩ := by
  rw [lead?, if_neg (by omega), if_neg (by omega), if_neg (by omega)]
  by_cases hfirst : b = 0xE0
  · subst hfirst
    rfl
  by_cases hmiddle : b = 0xED
  · subst hmiddle
    rfl
  rw [if_neg hfirst, if_neg hmiddle, if_pos hhigh, if_neg hfirst, if_neg hmiddle]

theorem lead?_four {b : Nat} (hlow : 0xF0 ≤ b) (hhigh : b < 0xF5) :
    lead? b = some ⟨3, if b = 0xF0 then 0x90 else 0x80, if b = 0xF4 then 0x8F else 0xBF,
      b - 0xF0⟩ := by
  rw [lead?, if_neg (by omega), if_neg (by omega), if_neg (by omega), if_neg (by omega),
    if_neg (by omega), if_neg (by omega)]
  by_cases hfirst : b = 0xF0
  · subst hfirst
    rfl
  by_cases hlast : b = 0xF4
  · subst hlast
    rfl
  rw [if_neg hfirst, if_pos (by omega), if_neg hfirst, if_neg hlast]

theorem lead?_none {b : Nat} (h : (0x80 ≤ b ∧ b < 0xC2) ∨ 0xF5 ≤ b) : lead? b = none := by
  rcases h with ⟨hlow, hhigh⟩ | hlow
  · rw [lead?, if_neg (by omega), if_pos hhigh]
  · rw [lead?, if_neg (by omega), if_neg (by omega), if_neg (by omega), if_neg (by omega),
      if_neg (by omega), if_neg (by omega), if_neg (by omega), if_neg (by omega),
      if_neg (by omega)]

/-! ### Single steps of the decoder -/

variable {position : Nat} {sofar : Text} {rest : Bytes} {t : Text}

theorem decodeFrom_ascii {b : UInt8} {l : Lead} (hlead : lead? b.toNat = some l)
    (hmore : l.more = 0) :
    decodeFrom position none sofar (b :: rest)
      = decodeFrom (position + 1) none (CodePoint.ofNat l.bits :: sofar) rest := by
  simp only [decodeFrom, hlead, hmore, if_true]

theorem decodeFrom_lead {b : UInt8} {l : Lead} (hlead : lead? b.toNat = some l)
    (hmore : l.more ≠ 0) :
    decodeFrom position none sofar (b :: rest)
      = decodeFrom (position + 1) (some ⟨[b], l⟩) sofar rest := by
  simp only [decodeFrom, hlead, hmore, if_false]

theorem decodeFrom_last {b : UInt8} {p : Pending} (hlow : p.due.low ≤ b.toNat)
    (hhigh : b.toNat ≤ p.due.high) (hmore : p.due.more ≤ 1) :
    decodeFrom position (some p) sofar (b :: rest)
      = decodeFrom (position + 1) none
          (CodePoint.ofNat (p.due.bits * 64 + b.toNat % 64) :: sofar) rest := by
  simp only [decodeFrom, hlow, hhigh, hmore, and_self, if_true]

theorem decodeFrom_more {b : UInt8} {p : Pending} (hlow : p.due.low ≤ b.toNat)
    (hhigh : b.toNat ≤ p.due.high) (hmore : ¬ p.due.more ≤ 1) :
    decodeFrom position (some p) sofar (b :: rest)
      = decodeFrom (position + 1)
          (some ⟨p.seen ++ [b],
            ⟨p.due.more - 1, 0x80, 0xBF, p.due.bits * 64 + b.toNat % 64⟩⟩) sofar rest := by
  simp only [decodeFrom, hlow, hhigh, hmore, and_self, if_true, if_false]

/-- A character that has begun is completed only by a byte in the range that is due. -/
theorem decodeFrom_pending {p : Pending} {bytes : Bytes}
    (h : decodeFrom position (some p) sofar bytes = .ok t) :
    ∃ b rest, bytes = b :: rest ∧ p.due.low ≤ b.toNat ∧ b.toNat ≤ p.due.high := by
  cases bytes with
  | nil => simp [decodeFrom] at h
  | cons b rest =>
      by_cases hrange : p.due.low ≤ b.toNat ∧ b.toNat ≤ p.due.high
      · exact ⟨b, rest, rfl, hrange.1, hrange.2⟩
      · simp [decodeFrom, hrange] at h

/-! ### A character at a time -/

theorem byte_toNat {n : Nat} (h : n < 256) : (UInt8.ofNat n).toNat = n :=
  UInt8.toNat_ofNat_of_lt' h

private theorem ofNat_eq {n : Nat} {b : UInt8} (h : n = b.toNat) : UInt8.ofNat n = b := by
  rw [h, UInt8.ofNat_toNat]

private theorem codePoint_ofNat {n : Nat} {p : CodePoint} (h : n = p.val) :
    CodePoint.ofNat n = p := by
  apply Fin.ext
  show n % 0x110000 = p.val
  rw [h, Nat.mod_eq_of_lt p.isLt]

/-- **The decoder gets past the form of a character and has the character.** -/
theorem decodeFrom_encodeOne {p : CodePoint} (hp : p.isSurrogate = false) (position : Nat)
    (sofar : Text) (rest : Bytes) :
    decodeFrom position none sofar (encodeOne p ++ rest)
      = decodeFrom (position + (encodeOne p).length) none (p :: sofar) rest := by
  have hplain := CodePoint.isSurrogate_eq_false_iff.mp hp
  have hlast := p.isLt
  unfold encodeOne
  by_cases h1 : p.val < 0x80
  · have hb : (UInt8.ofNat p.val).toNat = p.val := byte_toNat (by omega)
    simp only [h1, if_true, List.cons_append, List.nil_append]
    rw [decodeFrom_ascii (lead?_one (by omega)) rfl, codePoint_ofNat hb]
    rfl
  by_cases h2 : p.val < 0x800
  · have hb : (UInt8.ofNat (0xC0 + p.val / 64)).toNat = 0xC0 + p.val / 64 :=
      byte_toNat (by omega)
    have hc : (UInt8.ofNat (0x80 + p.val % 64)).toNat = 0x80 + p.val % 64 :=
      byte_toNat (by omega)
    simp only [h1, h2, if_true, if_false, List.cons_append, List.nil_append]
    rw [decodeFrom_lead (lead?_two (by omega) (by omega)) (by simp),
      decodeFrom_last (by simp only [hc]; omega) (by simp only [hc]; omega) (Nat.le_refl _),
      codePoint_ofNat (p := p) (by simp only [hb, hc]; omega)]
    rfl
  by_cases h3 : p.val < 0x10000
  · have hb : (UInt8.ofNat (0xE0 + p.val / 4096)).toNat = 0xE0 + p.val / 4096 :=
      byte_toNat (by omega)
    have hc : (UInt8.ofNat (0x80 + p.val / 64 % 64)).toNat = 0x80 + p.val / 64 % 64 :=
      byte_toNat (by omega)
    have hd : (UInt8.ofNat (0x80 + p.val % 64)).toNat = 0x80 + p.val % 64 :=
      byte_toNat (by omega)
    simp only [h1, h2, h3, if_true, if_false, List.cons_append, List.nil_append]
    rw [decodeFrom_lead (lead?_three (by omega) (by omega)) (by simp),
      decodeFrom_more (by simp only [hb, hc]; split <;> omega)
        (by simp only [hb, hc]; split <;> omega) (by simp),
      decodeFrom_last (by simp only [hd]; omega) (by simp only [hd]; omega) (by simp),
      codePoint_ofNat (p := p) (by simp only [hb, hc, hd]; omega)]
    rfl
  · have hb : (UInt8.ofNat (0xF0 + p.val / 262144)).toNat = 0xF0 + p.val / 262144 :=
      byte_toNat (by omega)
    have hc : (UInt8.ofNat (0x80 + p.val / 4096 % 64)).toNat = 0x80 + p.val / 4096 % 64 :=
      byte_toNat (by omega)
    have hd : (UInt8.ofNat (0x80 + p.val / 64 % 64)).toNat = 0x80 + p.val / 64 % 64 :=
      byte_toNat (by omega)
    have he : (UInt8.ofNat (0x80 + p.val % 64)).toNat = 0x80 + p.val % 64 :=
      byte_toNat (by omega)
    simp only [h1, h2, h3, if_false, List.cons_append, List.nil_append]
    rw [decodeFrom_lead (lead?_four (by omega) (by omega)) (by simp),
      decodeFrom_more (by simp only [hb, hc]; split <;> omega)
        (by simp only [hb, hc]; split <;> omega) (by simp),
      decodeFrom_more (by simp only [hd]; omega) (by simp only [hd]; omega) (by simp),
      decodeFrom_last (by simp only [he]; omega) (by simp only [he]; omega) (by simp),
      codePoint_ofNat (p := p) (by simp only [hb, hc, hd, he]; omega)]
    rfl

/-- The form of a character has the size that its number asks for. -/
private theorem encodeOne_two {n : Nat} {b c : UInt8} (hn : n < 0x110000)
    (hlow : 0x80 ≤ n) (hhigh : n < 0x800) (hb : 0xC0 + n / 64 = b.toNat)
    (hc : 0x80 + n % 64 = c.toNat) : encodeOne (CodePoint.ofNat n) = [b, c] := by
  have hval : (CodePoint.ofNat n).val = n := Nat.mod_eq_of_lt hn
  simp only [encodeOne, hval]
  rw [if_neg (by omega), if_pos hhigh, ofNat_eq hb, ofNat_eq hc]

private theorem encodeOne_three {n : Nat} {b c d : UInt8} (hn : n < 0x110000)
    (hlow : 0x800 ≤ n) (hhigh : n < 0x10000) (hb : 0xE0 + n / 4096 = b.toNat)
    (hc : 0x80 + n / 64 % 64 = c.toNat) (hd : 0x80 + n % 64 = d.toNat) :
    encodeOne (CodePoint.ofNat n) = [b, c, d] := by
  have hval : (CodePoint.ofNat n).val = n := Nat.mod_eq_of_lt hn
  simp only [encodeOne, hval]
  rw [if_neg (by omega), if_neg (by omega), if_pos hhigh, ofNat_eq hb, ofNat_eq hc, ofNat_eq hd]

private theorem encodeOne_four {n : Nat} {b c d e : UInt8} (hn : n < 0x110000)
    (hlow : 0x10000 ≤ n) (hb : 0xF0 + n / 262144 = b.toNat)
    (hc : 0x80 + n / 4096 % 64 = c.toNat) (hd : 0x80 + n / 64 % 64 = d.toNat)
    (he : 0x80 + n % 64 = e.toNat) : encodeOne (CodePoint.ofNat n) = [b, c, d, e] := by
  have hval : (CodePoint.ofNat n).val = n := Nat.mod_eq_of_lt hn
  simp only [encodeOne, hval]
  rw [if_neg (by omega), if_neg (by omega), if_neg (by omega), ofNat_eq hb, ofNat_eq hc,
    ofNat_eq hd, ofNat_eq he]

private theorem plain_ofNat {n : Nat} (hn : n < 0x110000) (h : n < 0xD800 ∨ 0xE000 ≤ n) :
    (CodePoint.ofNat n).isSurrogate = false := by
  have hval : (CodePoint.ofNat n).val = n := Nat.mod_eq_of_lt hn
  rw [CodePoint.isSurrogate_eq_false_iff, hval]
  exact h

/-- **Where the decoder gets past anything, it gets past the form of a character.** -/
theorem decodeFrom_cons {b : UInt8} (h : decodeFrom position none sofar (b :: rest) = .ok t) :
    ∃ p after, p.isSurrogate = false ∧ b :: rest = encodeOne p ++ after := by
  rcases Nat.lt_or_ge b.toNat 0x80 with h1 | h1
  · refine ⟨CodePoint.ofNat b.toNat, rest, plain_ofNat (by omega) (by omega), ?_⟩
    have hval : (CodePoint.ofNat b.toNat).val = b.toNat := Nat.mod_eq_of_lt (by omega)
    simp [encodeOne, hval, h1]
  rcases Nat.lt_or_ge b.toNat 0xC2 with h2 | h2
  · simp [decodeFrom, lead?_none (Or.inl ⟨h1, h2⟩)] at h
  rcases Nat.lt_or_ge b.toNat 0xE0 with h3 | h3
  · rw [decodeFrom_lead (lead?_two h2 h3) (by simp)] at h
    obtain ⟨c, rest, rfl, hclow, hchigh⟩ := decodeFrom_pending h
    simp only at hclow hchigh
    refine ⟨CodePoint.ofNat ((b.toNat - 0xC0) * 64 + c.toNat % 64), rest,
      plain_ofNat (by omega) (by omega), ?_⟩
    rw [encodeOne_two (b := b) (c := c) (by omega) (by omega) (by omega) (by omega) (by omega)]
    rfl
  rcases Nat.lt_or_ge b.toNat 0xF0 with h4 | h4
  · rw [decodeFrom_lead (lead?_three h3 h4) (by simp)] at h
    obtain ⟨c, rest, rfl, hclow, hchigh⟩ := decodeFrom_pending h
    rw [decodeFrom_more hclow hchigh (by simp)] at h
    obtain ⟨d, rest, rfl, hdlow, hdhigh⟩ := decodeFrom_pending h
    simp only at hclow hchigh hdlow hdhigh
    -- The lower bound is what excludes over-long forms, the upper one surrogates.
    have hc : 0x80 ≤ c.toNat ∧ c.toNat ≤ 0xBF ∧ (b.toNat = 0xE0 → 0xA0 ≤ c.toNat)
        ∧ (b.toNat = 0xED → c.toNat ≤ 0x9F) := by
      split at hclow <;> split at hchigh <;> omega
    clear hclow hchigh h
    refine ⟨CodePoint.ofNat (((b.toNat - 0xE0) * 64 + c.toNat % 64) * 64 + d.toNat % 64), rest,
      plain_ofNat (by omega) (by omega), ?_⟩
    rw [encodeOne_three (b := b) (c := c) (d := d) (by omega) (by omega) (by omega) (by omega)
      (by omega) (by omega)]
    rfl
  rcases Nat.lt_or_ge b.toNat 0xF5 with h5 | h5
  · rw [decodeFrom_lead (lead?_four h4 h5) (by simp)] at h
    obtain ⟨c, rest, rfl, hclow, hchigh⟩ := decodeFrom_pending h
    rw [decodeFrom_more hclow hchigh (by simp)] at h
    obtain ⟨d, rest, rfl, hdlow, hdhigh⟩ := decodeFrom_pending h
    rw [decodeFrom_more hdlow hdhigh (by simp)] at h
    obtain ⟨e, rest, rfl, helow, hehigh⟩ := decodeFrom_pending h
    simp only at hclow hchigh hdlow hdhigh helow hehigh
    -- The lower bound is what excludes over-long forms, the upper one too great numbers.
    have hc : 0x80 ≤ c.toNat ∧ c.toNat ≤ 0xBF ∧ (b.toNat = 0xF0 → 0x90 ≤ c.toNat)
        ∧ (b.toNat = 0xF4 → c.toNat ≤ 0x8F) := by
      split at hclow <;> split at hchigh <;> omega
    clear hclow hchigh h
    refine ⟨CodePoint.ofNat ((((b.toNat - 0xF0) * 64 + c.toNat % 64) * 64 + d.toNat % 64) * 64
      + e.toNat % 64), rest, plain_ofNat (by omega) (by omega), ?_⟩
    rw [encodeOne_four (b := b) (c := c) (d := d) (e := e) (by omega) (by omega) (by omega)
      (by omega) (by omega) (by omega)]
    rfl
  · simp [decodeFrom, lead?_none (Or.inr h5)] at h

/-! ### Whole texts -/

/-- **The decoder gets past the form of a text and has the text.** -/
theorem decodeFrom_flatMap (t : Text) (ht : t.Plain) :
    ∀ (position : Nat) (sofar : Text) (rest : Bytes),
      decodeFrom position none sofar (t.flatMap encodeOne ++ rest)
        = decodeFrom (position + (t.flatMap encodeOne).length) none (t.reverse ++ sofar) rest := by
  induction t with
  | nil => intro position sofar rest; rfl
  | cons p t ih =>
      intro position sofar rest
      rw [List.flatMap_cons, List.append_assoc, decodeFrom_encodeOne (ht p (by simp)),
        ih (fun q hq => ht q (by simp [hq])), List.length_append, List.reverse_cons,
        List.append_assoc, Nat.add_assoc]
      rfl

theorem encodeOne_ne_nil (p : CodePoint) : encodeOne p ≠ [] := by
  simp only [encodeOne]
  split
  · simp
  split
  · simp
  split <;> simp

/-- Whatever is decoded is put together from forms of characters. -/
theorem decodeFrom_eq_ok (n : Nat) : ∀ (b : Bytes), b.length = n →
    ∀ (position : Nat) (sofar t : Text), decodeFrom position none sofar b = .ok t →
      ∃ u : Text, t = sofar.reverse ++ u ∧ u.Plain ∧ u.flatMap encodeOne = b := by
  -- A character may take several bytes, so the induction is on how many there are.
  induction n using Nat.strong_induction_on with
  | _ n ih =>
      intro b hb position sofar t h
      cases b with
      | nil =>
          have ht : sofar.reverse = t := by simpa [decodeFrom] using h
          exact ⟨[], by simp [ht], Text.plain_nil, rfl⟩
      | cons x rest =>
          obtain ⟨p, after, hp, hsplit⟩ := decodeFrom_cons h
          rw [hsplit, decodeFrom_encodeOne hp] at h
          have hshorter : after.length < n := by
            rw [← hb, hsplit, List.length_append]
            have := List.length_pos_iff.mpr (encodeOne_ne_nil p)
            omega
          obtain ⟨u, hu, hplain, hform⟩ := ih _ hshorter after rfl _ _ _ h
          refine ⟨p :: u, by simp [hu], Text.plain_cons.mpr ⟨hp, hplain⟩, ?_⟩
          rw [List.flatMap_cons, hform, hsplit]

/-- **Decoding accepts exactly what encoding produces.** -/
theorem decode_eq_ok_iff {b : Bytes} {t : Text} : decode b = .ok t ↔ encode t = .ok b := by
  rw [encode_eq_ok_iff]
  refine ⟨fun h => ?_, fun h => ?_⟩
  · obtain ⟨u, hu, hplain, hform⟩ := decodeFrom_eq_ok b.length b rfl 0 [] t h
    have htu : t = u := by simpa using hu
    rw [htu]
    exact ⟨hplain, hform⟩
  · obtain ⟨hplain, rfl⟩ := h
    have h := decodeFrom_flatMap t hplain 0 [] []
    simpa [decode, decodeFrom] using h

end Utf8
end GestureStore
