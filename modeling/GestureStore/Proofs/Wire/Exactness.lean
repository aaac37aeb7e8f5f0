/-
Every gesture has its bytes, and all other bytes are refused.

`Gesture.takes_read` and `Gesture.refuses_read` say together what reading does to any
bytes.  The first gives that a gesture is read exactly behind the bytes it is written as.
Two gestures never have the same bytes, nor do the bytes of one begin with those of
another, since the one reader would have to end in two places (`Takes.end_unique`).

What is refused is missing something or counts below one, with one exception: a stroke
that is all there but has a point that is nowhere.  Such bytes are not malformed, they
describe something that is no stroke, and the fault is another one (`ReachesNowhere`).
-/
import GestureStore.Proofs.Wire.Layout
import GestureStore.Proofs.Wire.Refusal

namespace GestureStore

open Writer Reader

namespace Gesture

/-! ### What can be written -/

theorem fault_eq_none_iff {g : Gesture} :
    g.write.fault = none ↔ (-2 ^ 63 ≤ g.id ∧ g.id < 2 ^ 63) ∧ g.strokes.length < 2 ^ 31 ∧
      ∀ s ∈ g.strokes, s.points.length < 2 ^ 31 := by
  rw [← exists_layout_iff]
  constructor
  · intro h
    exact ⟨_, writes_parts_iff.mp (writes_of_fault h)⟩
  · intro h
    obtain ⟨f, hf⟩ := h
    unfold write
    rw [writes_parts_iff.mpr hf]

/-! ### What is refused -/

/--
After an identifier, a number of strokes and some but not all of these strokes, there is
one that is complete and has a point that is nowhere.
-/
def ReachesNowhere (b : Bytes) : Prop :=
  ∃ (id : Int) (n : Nat) (strokes : List Stroke) (ps : List Point) (f rest : Bytes),
    strokes.length < n ∧ (∃ p ∈ ps, p.isFinite = false) ∧
    Writes (Writer.long id :: Writer.int n ::
      (strokes.flatMap Stroke.parts ++ [Writer.int ps.length, .ok (Writer.points ps)])) f ∧
    b = f ++ rest

theorem Refused.cause {e : Fault} {f rest : Bytes} (h : Refused e f rest) :
    (∃ cause, e = .decode cause) ∨ e = .input .notFinite := by
  cases h with
  | cutId _ => exact Or.inl ⟨_, rfl⟩
  | cutCount _ _ => exact Or.inl ⟨_, rfl⟩
  | negative _ _ _ => exact Or.inl ⟨_, rfl⟩
  | stroke _ _ _ _ hnext =>
      cases hnext with
      | cutCount _ => exact Or.inl ⟨_, rfl⟩
      | negative _ _ => exact Or.inl ⟨_, rfl⟩
      | empty _ => exact Or.inl ⟨_, rfl⟩
      | cutPoints _ _ => exact Or.inl ⟨_, rfl⟩
      | nowhere _ _ => exact Or.inr rfl

/-- A gesture is refused for its points exactly if one of a complete stroke is nowhere. -/
theorem refused_input_iff {f rest : Bytes} :
    Refused (.input .notFinite) f rest ↔
      ∃ (id : Int) (n : Nat) (strokes : List Stroke) (ps : List Point),
        strokes.length < n ∧ (∃ p ∈ ps, p.isFinite = false) ∧
        Writes (Writer.long id :: Writer.int n ::
          (strokes.flatMap Stroke.parts ++ [Writer.int ps.length, .ok (Writer.points ps)])) f := by
  simp only [writes_cons, writes_append, writes_flatMap, writes_nil]
  constructor
  · intro h
    cases h with
    | @stroke id n strokes _ f g h _ _ hid hcount hfewer hstrokes hnext =>
        cases hnext with
        | @nowhere ps i _ hsize hnot =>
            exact ⟨id, n, strokes, ps, hfewer, hnot, f, _, hid, ⟨g, _, hcount, ⟨h, _, hstrokes,
              ⟨i, _, hsize, ⟨Writer.points ps, [], rfl, rfl, rfl⟩, rfl⟩, rfl⟩, rfl⟩,
              by rw [List.append_nil]⟩
  · intro h
    obtain ⟨id, n, strokes, ps, hfewer, hnot, f, _, hid, ⟨g, _, hcount, ⟨h, _, hstrokes,
      ⟨i, _, hsize, ⟨j, _, hj, rfl, rfl⟩, rfl⟩, rfl⟩, rfl⟩, rfl⟩ := h
    obtain rfl := Except.ok.inj hj
    rw [List.append_nil]
    exact .stroke hid hcount hfewer hstrokes (.nowhere hsize hnot)

theorem read_refuses_input_iff {b : Bytes} {cause : InputFault} :
    (∃ k, read.EndsAfter b (.error (.input cause)) k) ↔
      cause = .notFinite ∧ ReachesNowhere b := by
  simp only [refuses_read.endsAfter_iff]
  constructor
  · intro h
    obtain ⟨k, -, hrefused⟩ := h
    rcases hrefused.cause with ⟨_, h⟩ | h
    · cases h
    · obtain rfl := Fault.input.inj h
      obtain ⟨id, n, strokes, ps, hfewer, hnot, hparts⟩ := refused_input_iff.mp hrefused
      exact ⟨rfl, id, n, strokes, ps, _, _, hfewer, hnot, hparts,
        (List.take_append_drop k b).symm⟩
  · intro h
    obtain ⟨rfl, id, n, strokes, ps, f, rest, hfewer, hnot, hparts, rfl⟩ := h
    refine ⟨f.length, by simp, ?_⟩
    rw [List.take_left, List.drop_left]
    exact refused_input_iff.mpr ⟨id, n, strokes, ps, hfewer, hnot, hparts⟩

/-- Whatever the bytes are, a gesture is read or one of two kinds of fault is found. -/
theorem read_total (b : Bytes) :
    (∃ g k, read.EndsAfter b (.ok g) k) ∨
      (∃ cause k, read.EndsAfter b (.error (.decode cause)) k) ∨
      ∃ k, read.EndsAfter b (.error (.input .notFinite)) k := by
  obtain ⟨outcome, k, hends⟩ := exists_endsAfter takes_read refuses_read b
  cases outcome with
  | ok g => exact Or.inl ⟨g, k, hends⟩
  | error e =>
      obtain ⟨-, hrefused⟩ := refuses_read.endsAfter_iff.mp hends
      rcases hrefused.cause with ⟨cause, rfl⟩ | rfl
      · exact Or.inr (Or.inl ⟨cause, k, hends⟩)
      · exact Or.inr (Or.inr ⟨k, hends⟩)

/-! ### Gestures and their bytes -/

/--
**Reading accepts exactly what writing produces.**

A gesture is read from the first bytes, and the rest is left, exactly if these bytes are
what the gesture is written as.  It can be written if its identifier and its counts fit
their fields.  All other bytes are refused: as malformed, or for a point that is nowhere
if there is a complete stroke with one.  So no two gestures are written as the same
bytes, and none as the beginning of the bytes of another.
-/
theorem read_accepts_exactly_what_is_written :
    (∀ (b : Bytes) (g : Gesture) (k : Nat),
      read.EndsAfter b (.ok g) k ↔ k ≤ b.length ∧ g.write = ⟨b.take k, none⟩) ∧
    (∀ g : Gesture, g.write.fault = none ↔ (-2 ^ 63 ≤ g.id ∧ g.id < 2 ^ 63) ∧
      g.strokes.length < 2 ^ 31 ∧ ∀ s ∈ g.strokes, s.points.length < 2 ^ 31) ∧
    (∀ b : Bytes, (∃ g k, read.EndsAfter b (.ok g) k) ∨
      (∃ cause k, read.EndsAfter b (.error (.decode cause)) k) ∨
      ∃ k, read.EndsAfter b (.error (.input .notFinite)) k) ∧
    (∀ (b : Bytes) (cause : InputFault), (∃ k, read.EndsAfter b (.error (.input cause)) k) ↔
      cause = .notFinite ∧ ReachesNowhere b) ∧
    ∀ g h : Gesture, g.write.fault = none → h.write.fault = none →
      (g.write.bytes = h.write.bytes ↔ g.id = h.id ∧ g.sameGeometry h = true) ∧
      (g.write.bytes <+: h.write.bytes → g.write.bytes = h.write.bytes) := by
  refine ⟨fun b g k => takes_read.endsAfter_iff, fun g => fault_eq_none_iff, read_total,
    fun b cause => read_refuses_input_iff, ?_⟩
  intro g h hg hh
  have hforms : ∀ rest rest', g.write.bytes ++ rest = h.write.bytes ++ rest' →
      g = h ∧ rest = rest' := fun rest rest' =>
    takes_read.end_unique (writes_of_fault hg) (writes_of_fault hh)
  have hsame : g = h ↔ g.id = h.id ∧ g.sameGeometry h = true := by
    rw [sameGeometry, decide_eq_true_iff]
    cases g
    cases h
    rw [mk.injEq]
  constructor
  · rw [← hsame]
    constructor
    · intro hbytes
      exact (hforms [] [] (by rw [hbytes])).1
    · rintro rfl
      rfl
  · intro hfront
    obtain ⟨rest, hrest⟩ := hfront
    obtain ⟨-, rfl⟩ := hforms rest [] (by rw [hrest, List.append_nil])
    rw [List.append_nil] at hrest
    exact hrest

theorem origin_ne_nil : [(⟨⟨0⟩, ⟨0⟩, 0⟩ : Point)] ≠ [] := by simp

theorem origin_finite : [(⟨⟨0⟩, ⟨0⟩, 0⟩ : Point)].all Point.isFinite = true := by decide

/-- A gesture of two strokes, the second with a coordinate of minus zero. -/
def tick (id : Int) : Gesture where
  id
  strokes := [⟨[⟨⟨0⟩, ⟨0⟩, 0⟩], origin_ne_nil, origin_finite⟩,
    ⟨[⟨⟨0x3f800000⟩, ⟨0x80000000⟩, -1⟩, ⟨⟨1⟩, ⟨0⟩, 5⟩], by simp, by decide⟩]

theorem tick_is_read_behind_its_bytes :
    read.EndsAfter ((tick 7).write.bytes ++ [9]) (.ok (tick 7)) 68 ∧
      (tick 7).write.bytes ≠ (tick 8).write.bytes := by
  have hroom : ∀ id : Int, -2 ^ 63 ≤ id ∧ id < 2 ^ 63 → (tick id).write.fault = none := by
    intro id hid
    exact (read_accepts_exactly_what_is_written.2.1 (tick id)).mpr ⟨hid, by simp [tick]⟩
  obtain ⟨hread, -, -, -, hapart⟩ := read_accepts_exactly_what_is_written
  constructor
  · exact (hread _ _ _).mpr ⟨by decide, by decide⟩
  · intro hbytes
    have hid := ((hapart (tick 7) (tick 8) (hroom 7 (by decide)) (hroom 8 (by decide))).1.mp hbytes).1
    exact absurd hid (by decide)

end Gesture
end GestureStore
