/-
Mixed streams are read back as they were written.

Two things could put a reader out of step with a writer: a value that is refused after
a part of it was put on the stream, and a value that is not told apart from what stands
behind it.  The first does not happen, as nothing is put before all that can stop it is
known (`write_run`).  The second does not, as each kind is read from what it is written
as and from nothing else (`read_encoded`); that carries over to any number of kinds in a
row.
-/
import GestureStore.Proofs.Wire.Field
import GestureStore.Wire.Session

namespace GestureStore

/-! ### All or nothing -/

/-- What was put on a stream in one go, or why nothing was. -/
def Sink.Whole (s : Sink Unit) (outcome : Except Fault Bytes) : Prop :=
  ∀ stream, s.run stream = match outcome with
    | .ok bytes => (.ok (), stream ++ bytes)
    | .error e => (.error e, stream)

namespace Sink

theorem run_bind (s : Sink α) (next : α → Sink β) (stream : Bytes) :
    (s >>= next).run stream = match s.run stream with
      | (.ok a, later) => (next a).run later
      | (.error e, later) => (.error e, later) := by
  rcases h : s.run stream with ⟨outcome, later⟩
  rw [ExceptT.run_bind]
  show StateT.bind s.run _ stream = _
  unfold StateT.bind
  rw [h]
  cases outcome <;> rfl

theorem whole_ofExcept (outcome : Except Fault Bytes) :
    Whole (do put (← ofExcept outcome)) outcome := by
  intro stream
  cases outcome <;> rfl

theorem whole_utf (t : Text) : (utf t).Whole (Writer.utf t) := by
  intro stream
  unfold utf Writer.utf
  cases Utf8.encode t with
  | error e => rfl
  | ok bytes =>
      simp only [Except.mapError, ofExcept, pure_bind]
      by_cases hlong : maxTextBytes < bytes.length
      · simp only [hlong, if_true]
        rfl
      · simp only [hlong, if_false]
        show (_, stream ++ _ ++ bytes) = (_, stream ++ (_ ++ bytes))
        rw [List.append_assoc]

end Sink

/-- **An item is put on the stream as a whole, or not at all.** -/
theorem Item.whole_write (item : Item) : item.write.Whole item.encode := by
  cases item with
  | short i => exact Sink.whole_ofExcept _
  | int i => exact Sink.whole_ofExcept _
  | long i => exact Sink.whole_ofExcept _
  | float x => exact Sink.whole_ofExcept _
  | utf t => exact Sink.whole_utf t
  | points ps => exact fun stream => rfl

/-! ### What can be put -/

/-- The values that there is a form for. -/
def Item.Fits : Item → Prop
  | short i => -2 ^ 15 ≤ i ∧ i < 2 ^ 15
  | int i => -2 ^ 31 ≤ i ∧ i < 2 ^ 31
  | long i => -2 ^ 63 ≤ i ∧ i < 2 ^ 63
  | float x => x.isFinite = true → (Single.ofFloat x).isFinite = true
  | utf t => ∃ bytes, Utf8.encode t = .ok bytes ∧ bytes.length ≤ 65535
  | points _ => True

theorem Writer.exists_integer_iff {k : Nat} {i : Int} :
    (∃ f, integer k i = .ok f) ↔ -(256 ^ k : Int) ≤ 2 * i ∧ 2 * i < (256 ^ k : Int) := by
  rw [← Bytes.fits_iff, integer]
  by_cases hfits : Bytes.fits k i = true
  · simp [hfits]
  · simp [hfits]

/-- Everything that there is a form for can be encoded, and nothing else. -/
theorem Item.exists_encode_iff (item : Item) : (∃ f, item.encode = .ok f) ↔ item.Fits := by
  cases item with
  | short i =>
      refine Writer.exists_integer_iff.trans ?_
      rw [Fits]
      omega
  | int i =>
      refine Writer.exists_integer_iff.trans ?_
      rw [Fits]
      omega
  | long i =>
      refine Writer.exists_integer_iff.trans ?_
      rw [Fits]
      omega
  | float x =>
      rw [encode, Writer.float, Fits]
      by_cases hx : x.isFinite = true
      · by_cases hs : (Single.ofFloat x).isFinite = true
        · simp [hx, hs]
        · simp [hx, hs]
      · simp [hx]
  | utf t =>
      rw [encode, Writer.utf, Fits]
      cases Utf8.encode t with
      | error e => simp
      | ok bytes =>
          by_cases hlong : maxTextBytes < bytes.length
          · simp only [maxTextBytes] at hlong
            simp [maxTextBytes, hlong]
          · simp only [maxTextBytes] at hlong
            simp [maxTextBytes, hlong, Nat.le_of_not_lt hlong]
  | points ps => simp [encode, Fits]

/-! ### What is read of one item -/

namespace Reader

theorem takes_int (field : Text) :
    (int field).Takes fun i f => Writer.int i = .ok f := takes_integer 4 field

theorem takes_float (field : Text) :
    (float field).Takes fun s f => Writer.single s = f := by
  refine ((takes_exactly 4 field).map singleOfBytes).congr ?_
  intro s f
  rw [single_eq_iff]
  refine ⟨?_, ?_⟩
  · intro h
    obtain ⟨a, ⟨rfl, hlen⟩, rfl⟩ := h
    exact ⟨hlen, rfl⟩
  · intro h
    obtain ⟨hlen, rfl⟩ := h
    exact ⟨f, ⟨rfl, hlen⟩, rfl⟩

end Reader

namespace Item

/-- **An item is read back from its bytes, whatever stands behind them.** -/
theorem read_encoded {item : Item} {f : Bytes} (h : item.encode = .ok f) (field : Text)
    (rest : Bytes) : item.kind.read field (f ++ rest) = (.ok item.datum, rest) := by
  cases item with
  | short i => exact Reader.bind_ok ((Reader.takes_short field).read h rest)
  | int i => exact Reader.bind_ok ((Reader.takes_int field).read h rest)
  | long i => exact Reader.bind_ok ((Reader.takes_long field).read h rest)
  | float x =>
      have hform : Writer.single (Single.ofFloat x) = f := by
        simp only [encode, Writer.float] at h
        split at h
        · simp at h
        · exact Except.ok.inj h
      exact Reader.bind_ok ((Reader.takes_float field).read hform rest)
  | utf t => exact Reader.bind_ok ((Reader.takes_utf field).read h rest)
  | points ps =>
      exact Reader.bind_ok
        ((Reader.takes_points ps.length field).read ⟨rfl, Except.ok.inj h⟩ rest)

/-- **Items are read back from their bytes, one behind the other.** -/
theorem readAll_joined {named : List (Kind × Text)} {items : List Item} {f : Bytes}
    (hkinds : named.map Prod.fst = items.map kind)
    (h : Joined (fun item g => item.encode = .ok g) items f) (rest : Bytes) :
    Kind.readAll named (f ++ rest) = (.ok (items.map datum), rest) := by
  induction items generalizing named f with
  | nil =>
      obtain rfl := List.map_eq_nil_iff.mp hkinds
      rw [show f = [] from h]
      rfl
  | cons item items ih =>
      obtain ⟨⟨kind, field⟩, named, rfl, rfl, hlater⟩ := List.map_eq_cons_iff.mp hkinds
      obtain ⟨g, h, hg, hh, rfl⟩ := h
      rw [Kind.readAll, List.append_assoc, Reader.bind_ok (read_encoded hg field _),
        Reader.bind_ok (ih hlater hh)]
      rfl

/-! ### Runs of steps -/

theorem attempt_error (e : Fault) (stream : Bytes) :
    (attempt (.error e)).run stream = (.error e, stream) := rfl

theorem attempt_ok (item : Item) (stream : Bytes) :
    (attempt (.ok item)).run stream = match item.encode with
      | .ok bytes => (.ok item, stream ++ bytes)
      | .error e => (.error e, stream) := by
  unfold attempt
  rw [Sink.ofExcept, pure_bind, Sink.run_bind, whole_write]
  cases item.encode <;> rfl

theorem attempt_refused {asked : Except Fault Item} {sofar later : Bytes} {e : Fault}
    (h : (attempt asked).run sofar = (.error e, later)) : later = sofar := by
  cases asked with
  | error fault =>
      rw [attempt_error] at h
      exact (Prod.mk.inj h).2.symm
  | ok item =>
      rw [attempt_ok] at h
      cases hcode : item.encode with
      | error fault =>
          rw [hcode] at h
          exact (Prod.mk.inj h).2.symm
      | ok bytes =>
          rw [hcode] at h
          exact absurd (Prod.mk.inj h).1 (by simp)

theorem attempt_accepted_iff (item : Item) (sofar : Bytes) :
    (∃ later, (attempt (.ok item)).run sofar = (.ok item, later)) ↔ item.Fits := by
  rw [attempt_ok, ← exists_encode_iff]
  cases item.encode with
  | error e =>
      refine ⟨?_, ?_⟩
      · intro h
        obtain ⟨later, h⟩ := h
        exact absurd (Prod.mk.inj h).1 (by simp)
      · intro h
        obtain ⟨f, hf⟩ := h
        exact absurd hf (by simp)
  | ok bytes => exact ⟨fun _ => ⟨bytes, rfl⟩, fun _ => ⟨sofar ++ bytes, rfl⟩⟩

/-- The stream holds the items that were written, one behind the other. -/
theorem session_joined (steps : List (Except Fault Item)) (stream : Bytes) :
    ∃ f, Joined (fun item g => item.encode = .ok g) (session stream steps).2 f ∧
      (session stream steps).1 = stream ++ f := by
  induction steps generalizing stream with
  | nil => exact ⟨[], rfl, (List.append_nil _).symm⟩
  | cons asked steps ih =>
      cases asked with
      | error e =>
          rw [session, attempt_error]
          exact ih stream
      | ok item =>
          rw [session, attempt_ok]
          cases hcode : item.encode with
          | error e => exact ih stream
          | ok bytes =>
              obtain ⟨f, hf, hstream⟩ := ih (stream ++ bytes)
              exact ⟨bytes ++ f, ⟨bytes, f, hcode, hf, rfl⟩, by
                rw [← List.append_assoc]
                exact hstream⟩

/--
**Mixed streams are read back as they were written.**

A step that is stopped puts nothing on the stream, and a step is stopped exactly if it
was asked for a value that its form has no room for.  After any steps, a reader that goes
through the kinds of those that were not stopped gets what was written, whatever stands
behind it, and ends where the writer did.
-/
theorem mixed_stream_reads_back :
    (∀ asked sofar e later, (attempt asked).run sofar = (.error e, later) → later = sofar) ∧
      (∀ item sofar, (∃ later, (attempt (.ok item)).run sofar = (.ok item, later)) ↔ item.Fits) ∧
      ∀ (steps : List (Except Fault Item)) (named : List (Kind × Text)) (rest : Bytes),
        named.map Prod.fst = (session [] steps).2.map kind →
        Kind.readAll named ((session [] steps).1 ++ rest)
          = (.ok ((session [] steps).2.map datum), rest) := by
  refine ⟨fun _ _ _ _ => attempt_refused, attempt_accepted_iff, ?_⟩
  intro steps named rest hkinds
  obtain ⟨f, hf, hstream⟩ := session_joined steps []
  rw [hstream, List.nil_append]
  exact readAll_joined hkinds hf rest

theorem read_past_refused_int :
    Kind.readAll [(.short, Text.of "x"), (.utf, Text.of "y")]
        ((session [] [.ok (short (-2)), .ok (int (2 ^ 31)), .ok (utf (Text.of "z"))]).1 ++ [7])
      = (.ok [.integer (-2), .text (Text.of "z")], [7]) :=
  mixed_stream_reads_back.2.2 _ [(.short, Text.of "x"), (.utf, Text.of "y")] [7] (by decide)

end Item
end GestureStore
