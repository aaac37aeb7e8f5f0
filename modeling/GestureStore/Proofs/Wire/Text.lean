/-
Texts and the bytes they are written as.

A text is written as the number of its bytes and these bytes.  The number has two bytes
of its own, so there is a longest text; otherwise all texts can be written but those with
a surrogate in them.  Reading asks for the number and for as many bytes, and these have to
be the form of a text.

With what the decoder is known to accept, reading and writing are inverse to each other,
and whatever is malformed in itself is refused wherever it stands.
-/
import GestureStore.Proofs.Text.Malformed
import GestureStore.Proofs.Wire.Refusal
import GestureStore.Proofs.Wire.Session

namespace GestureStore

open Reader

/-! ### What can be written -/

theorem Writer.exists_utf_iff {t : Text} :
    (∃ f, Writer.utf t = .ok f) ↔ t.Plain ∧ (t.flatMap Utf8.encodeOne).length ≤ 65535 := by
  have hfits : (∃ f, Writer.utf t = .ok f) ↔
      ∃ bytes, Utf8.encode t = .ok bytes ∧ bytes.length ≤ 65535 := (Item.utf t).exists_encode_iff
  rw [hfits]
  simp only [Utf8.encode_eq_ok_iff]
  constructor
  · intro h
    obtain ⟨_, ⟨ht, rfl⟩, hlen⟩ := h
    exact ⟨ht, hlen⟩
  · intro h
    obtain ⟨ht, hlen⟩ := h
    exact ⟨_, ⟨ht, rfl⟩, hlen⟩

theorem Sink.run_utf_eq_ok_iff {t : Text} {stream later : Bytes} :
    (Sink.utf t).run stream = (.ok (), later) ↔
      ∃ f, Writer.utf t = .ok f ∧ later = stream ++ f := by
  rw [Sink.whole_utf t stream]
  cases Writer.utf t with
  | ok f =>
      constructor
      · intro h
        exact ⟨f, rfl, (Prod.mk.inj h).2.symm⟩
      · intro h
        obtain ⟨_, hf, rfl⟩ := h
        obtain rfl := Except.ok.inj hf
        rfl
  | error e =>
      constructor
      · intro h
        exact absurd (Prod.mk.inj h).1 (by simp)
      · intro h
        obtain ⟨_, hf, -⟩ := h
        cases hf

/-! ### What is refused -/

/-- How a text is refused: the fault, the bytes it is found in, and those that are left. -/
inductive Text.Refused (field : Text) : Fault → Bytes → Bytes → Prop
  | cutLength {f : Bytes} (hcut : f.length < 2) :
      Refused field (.decode (.endOfData (field ++ Text.of " length"))) f []
  | cutBytes {length f : Bytes} (hlength : length.length = 2)
      (hcut : f.length < Bytes.toNat length) :
      Refused field (.decode (.endOfData field)) (length ++ f) []
  | malformed {length f rest : Bytes} {e : Utf8.DecodeError} (hlength : length.length = 2)
      (hsize : f.length = Bytes.toNat length) (hbad : Utf8.decode f = .error e) :
      Refused field (.decode (.badText field e)) (length ++ f) rest

/-- **Which bytes are refused as a text, and how.** -/
theorem Text.refuses_utf (field : Text) : (Reader.utf field).Refuses (Text.Refused field) := by
  have hdecoded : ∀ bytes : Bytes, Refuses
      (ofExcept ((Utf8.decode bytes).mapError fun e => .decode (.badText field e)))
      fun e f _ => (∃ cause, Utf8.decode bytes = .error cause ∧
        e = .decode (.badText field cause)) ∧ f = [] := by
    intro bytes
    refine (refuses_ofExcept _).congr fun e f rest => ?_
    cases Utf8.decode bytes with
    | ok t => simp [Except.mapError]
    | error cause => simp [Except.mapError, eq_comm]
  refine (Refuses.bind (takes_exactly 2 _) (refuses_exactly 2 _) fun length =>
    Refuses.bind (takes_exactly (Bytes.toNat length) _) (refuses_exactly _ _) hdecoded).congr
    fun e f rest => ?_
  constructor
  · intro h
    rcases h with ⟨rfl, hcut, rfl⟩ | ⟨length, _, _, ⟨rfl, hlength⟩, hlater, rfl⟩
    · exact .cutLength hcut
    rcases hlater with ⟨rfl, hcut, rfl⟩ | ⟨bytes, _, _, ⟨rfl, hsize⟩, ⟨⟨cause, hbad, rfl⟩, rfl⟩, rfl⟩
    · exact .cutBytes hlength hcut
    · rw [List.append_nil]
      exact .malformed hlength hsize hbad
  · intro h
    cases h with
    | cutLength hcut => exact Or.inl ⟨rfl, hcut, rfl⟩
    | cutBytes hlength hcut => exact Or.inr ⟨_, _, _, ⟨rfl, hlength⟩, Or.inl ⟨rfl, hcut, rfl⟩, rfl⟩
    | malformed hlength hsize hbad =>
        exact Or.inr ⟨_, _, _, ⟨rfl, hlength⟩, Or.inr ⟨_, _, [], ⟨rfl, hsize⟩, ⟨⟨_, hbad, rfl⟩, rfl⟩,
          (List.append_nil _).symm⟩, rfl⟩

theorem Text.Refused.cause {field : Text} {e : Fault} {f rest : Bytes}
    (h : Text.Refused field e f rest) : ∃ cause, e = .decode cause ∧
      (cause.field = field ∨ cause.field = field ++ Text.of " length") := by
  cases h with
  | cutLength _ => exact ⟨_, rfl, Or.inr rfl⟩
  | cutBytes _ _ => exact ⟨_, rfl, Or.inl rfl⟩
  | malformed _ _ _ => exact ⟨_, rfl, Or.inl rfl⟩

namespace Reader

/-- A text is read, or there is a fault that names the field or its length. -/
theorem utf_total (field : Text) (b : Bytes) :
    (∃ t k, (utf field).EndsAfter b (.ok t) k) ∨
      ∃ cause k, (utf field).EndsAfter b (.error (.decode cause)) k ∧
        (cause.field = field ∨ cause.field = field ++ Text.of " length") := by
  obtain ⟨outcome, k, hends⟩ := exists_endsAfter (takes_utf field) (Text.refuses_utf field) b
  cases outcome with
  | ok t => exact Or.inl ⟨t, k, hends⟩
  | error e =>
      obtain ⟨-, hrefused⟩ := (Text.refuses_utf field).endsAfter_iff.mp hends
      obtain ⟨cause, rfl, hfield⟩ := hrefused.cause
      exact Or.inr ⟨cause, k, hends, hfield⟩

/-- What is malformed is refused, and its bytes are used up. -/
theorem utf_refuses_malformed (field : Text) {t : Text} {m : Bytes} (ht : t.Plain)
    (hm : Utf8.Malformed m) (hsize : (t.flatMap Utf8.encodeOne ++ m).length ≤ 65535) (rest : Bytes) :
    ∃ e, (utf field).EndsAfter
      (Bytes.ofNat 2 (t.flatMap Utf8.encodeOne ++ m).length ++ (t.flatMap Utf8.encodeOne ++ m) ++ rest)
      (.error (.decode (.badText field e))) (2 + (t.flatMap Utf8.encodeOne ++ m).length) := by
  obtain ⟨e, hbad⟩ := hm.refused ht
  generalize t.flatMap Utf8.encodeOne ++ m = body at hsize hbad ⊢
  have hlength : Bytes.toNat (Bytes.ofNat 2 body.length) = body.length := by
    rw [Bytes.toNat_ofNat, Nat.mod_eq_of_lt (by omega)]
  have hlen : (Bytes.ofNat 2 body.length ++ body).length = 2 + body.length := by
    rw [List.length_append, Bytes.length_ofNat]
  refine ⟨e, (Text.refuses_utf field).endsAfter_iff.mpr ⟨?_, ?_⟩⟩
  · rw [List.length_append, hlen]
    exact Nat.le_add_right _ _
  · rw [List.take_left' hlen]
    exact .malformed (Bytes.length_ofNat _ _) hlength.symm hbad

/--
**Reading and writing texts are inverse to each other.**

A text is read from the first bytes exactly if writing it succeeds and puts just these
bytes on a stream.  It succeeds for the texts without surrogates that have no more than
65535 bytes in UTF-8.  Whatever else there is to read is a decoding fault that names the
field, and that is so for all that is malformed behind the form of a text: numbers in too
many bytes, surrogates, numbers beyond the last code point and characters that are cut
off.  So no text is read from two sequences of bytes.
-/
theorem texts_are_read_as_they_are_written :
    (∀ (field : Text) (b : Bytes) (t : Text) (k : Nat), (utf field).EndsAfter b (.ok t) k ↔
      k ≤ b.length ∧ ∀ stream, (Sink.utf t).run stream = (.ok (), stream ++ b.take k)) ∧
    (∀ (t : Text) (stream : Bytes), (∃ later, (Sink.utf t).run stream = (.ok (), later)) ↔
      t.Plain ∧ (t.flatMap Utf8.encodeOne).length ≤ 65535) ∧
    (∀ (field : Text) (b : Bytes), (∃ t k, (utf field).EndsAfter b (.ok t) k) ∨
      ∃ cause k, (utf field).EndsAfter b (.error (.decode cause)) k ∧
        (cause.field = field ∨ cause.field = field ++ Text.of " length")) ∧
    (∀ (field t : Text) (m rest : Bytes), t.Plain → Utf8.Malformed m →
      (t.flatMap Utf8.encodeOne ++ m).length ≤ 65535 → ∃ e, (utf field).EndsAfter
        (Bytes.ofNat 2 (t.flatMap Utf8.encodeOne ++ m).length ++ (t.flatMap Utf8.encodeOne ++ m)
          ++ rest)
        (.error (.decode (.badText field e))) (2 + (t.flatMap Utf8.encodeOne ++ m).length)) ∧
    ∀ (field : Text) (b b' : Bytes) (t : Text) (k k' : Nat), (utf field).EndsAfter b (.ok t) k →
      (utf field).EndsAfter b' (.ok t) k' → b.take k = b'.take k' := by
  refine ⟨?_, ?_, utf_total, ?_, ?_⟩
  · intro field b t k
    rw [(takes_utf field).endsAfter_iff]
    refine and_congr_right fun _ => ?_
    constructor
    · intro h stream
      exact Sink.run_utf_eq_ok_iff.mpr ⟨_, h, rfl⟩
    · intro h
      obtain ⟨f, hf, hbytes⟩ := Sink.run_utf_eq_ok_iff.mp (h [])
      rw [List.nil_append, List.nil_append] at hbytes
      rw [hbytes]
      exact hf
  · intro t stream
    rw [← Writer.exists_utf_iff]
    simp only [Sink.run_utf_eq_ok_iff]
    constructor
    · intro h
      obtain ⟨_, f, hf, -⟩ := h
      exact ⟨f, hf⟩
    · intro h
      obtain ⟨f, hf⟩ := h
      exact ⟨_, f, hf, rfl⟩
  · intro field t m rest ht hm hsize
    exact utf_refuses_malformed field ht hm hsize rest
  · intro field b b' t k k' h h'
    have hform := ((takes_utf field).endsAfter_iff.mp h).2
    have hform' := ((takes_utf field).endsAfter_iff.mp h').2
    exact Except.ok.inj (hform.symm.trans hform')

/-- An `é` is read from no bytes but its own, and behind it a zero in two bytes is refused. -/
theorem accented_letter_is_read_from_its_bytes_only :
    (∀ b k, (utf (Text.of "entry name")).EndsAfter b (.ok (Text.of "é")) k →
      b.take k = [0, 2, 0xC3, 0xA9]) ∧
    ∃ e, (utf (Text.of "entry name")).EndsAfter [0, 4, 0xC3, 0xA9, 0xC0, 0x80, 9]
      (.error (.decode (.badText (Text.of "entry name") e))) 6 := by
  obtain ⟨hread, -, -, hmalformed, hone⟩ := texts_are_read_as_they_are_written
  constructor
  · intro b k h
    have hletter : (utf (Text.of "entry name")).EndsAfter [0, 2, 0xC3, 0xA9] (.ok (Text.of "é")) 4 :=
      (hread _ _ _ _).mpr ⟨by decide, fun _ => Sink.run_utf_eq_ok_iff.mpr ⟨_, rfl, rfl⟩⟩
    exact hone _ _ _ _ _ _ h hletter
  · exact hmalformed (Text.of "entry name") (Text.of "é") (Utf8.spread 1 0 ++ []) [9]
      (Text.plain_of _) (.overlong (by decide) (by decide)) (by decide)

end Reader
end GestureStore
