/-
Gestures are read exactly from what they are written as.

A stroke is taken only with at least one point and with finite coordinates, which is
what its type says of it, so every stroke has a form and every form that is taken is
that of a stroke.  The identifier and the numbers of strokes and points have to fit
their fields; nothing else about a gesture can keep it from being written.
-/
import GestureStore.Proofs.Wire.Field
import GestureStore.Wire.Gesture

namespace GestureStore

open Writer Reader

theorem Stroke.ofPoints_eq_ok_iff {ps : List Point} {s : Stroke} :
    Stroke.ofPoints ps = .ok s ↔ s.points = ps := by
  rw [Stroke.ofPoints]
  refine ⟨?_, ?_⟩
  · intro h
    split at h
    · split at h
      · rw [← Except.ok.inj h]
      · simp at h
    · simp at h
  · intro h
    obtain rfl := h
    rw [dif_pos s.nonempty, dif_pos s.finite]

theorem Stroke.size_ne_zero (s : Stroke) : s.size ≠ 0 := by
  rw [Stroke.size, Ne, List.length_eq_zero_iff]
  exact s.nonempty

theorem Stroke.writes_parts_split {s : Stroke} {f : Bytes} :
    Writes s.parts f ↔ ∃ c, Writer.int s.size = .ok c ∧ f = c ++ Writer.points s.points := by
  rw [Stroke.parts, writes_cons]
  simp only [writes_cons, writes_nil, Except.ok.injEq]
  constructor
  · intro h
    obtain ⟨c, _, hc, ⟨_, _, rfl, rfl, rfl⟩, rfl⟩ := h
    exact ⟨c, hc, by rw [List.append_nil]⟩
  · intro h
    obtain ⟨c, hc, rfl⟩ := h
    exact ⟨c, _, hc, ⟨_, [], rfl, rfl, rfl⟩, by rw [List.append_nil]⟩

theorem Stroke.takes_read : Stroke.read.Takes fun s f => Writes s.parts f := by
  have hpoints : ∀ ps : List Point, (ofExcept (Stroke.ofPoints ps)).Takes
      fun s g => s.points = ps ∧ g = [] := by
    intro ps
    refine (takes_ofExcept _).congr fun s g => ?_
    rw [Stroke.ofPoints_eq_ok_iff]
  have hcounted : ∀ n : Nat, Takes
      (if n = 0 then (fail (.decode .noPoints) : Reader Stroke) else do
        ofExcept (Stroke.ofPoints (← Reader.points n (Text.of "stroke points"))))
      fun s g => s.size = n ∧ Writer.points s.points = g := by
    intro n
    by_cases hn : n = 0
    · rw [if_pos hn]
      refine (takes_fail _).congr fun s g => ?_
      exact ⟨False.elim, fun h => s.size_ne_zero (h.1.trans hn)⟩
    · rw [if_neg hn]
      refine ((Reader.takes_points n _).bind hpoints).congr fun s g => ?_
      refine ⟨?_, ?_⟩
      · intro h
        obtain ⟨ps, g, _, ⟨hlen, hform⟩, ⟨rfl, rfl⟩, rfl⟩ := h
        exact ⟨hlen, by rw [List.append_nil, hform]⟩
      · intro h
        obtain ⟨hlen, hform⟩ := h
        exact ⟨s.points, g, [], ⟨hlen, hform⟩, ⟨rfl, rfl⟩, (List.append_nil g).symm⟩
  refine ((takes_count _).bind hcounted).congr fun s f => ?_
  rw [writes_parts_split]
  refine ⟨?_, ?_⟩
  · intro h
    obtain ⟨n, g, h, hg, ⟨rfl, rfl⟩, rfl⟩ := h
    exact ⟨g, hg, rfl⟩
  · intro h
    obtain ⟨g, hg, rfl⟩ := h
    exact ⟨s.size, g, _, hg, ⟨rfl, rfl⟩, rfl⟩

theorem Gesture.writes_parts_split {g : Gesture} {f : Bytes} :
    Writes g.parts f ↔ ∃ id n body, Writer.long g.id = .ok id ∧
      Writer.int g.strokes.length = .ok n ∧
      Joined (fun s : Stroke => Writes s.parts) g.strokes body ∧ f = id ++ (n ++ body) := by
  rw [Gesture.parts, writes_cons]
  simp only [writes_cons, writes_flatMap]
  constructor
  · intro h
    obtain ⟨id, _, hid, ⟨n, body, hn, hbody, rfl⟩, rfl⟩ := h
    exact ⟨id, n, body, hid, hn, hbody, rfl⟩
  · intro h
    obtain ⟨id, n, body, hid, hn, hbody, rfl⟩ := h
    exact ⟨id, _, hid, ⟨n, body, hn, hbody, rfl⟩, rfl⟩

/-- **A gesture is read from what it is written as, and from nothing else.** -/
theorem Gesture.takes_read : Gesture.read.Takes fun g f => Writes g.parts f := by
  have hstrokes : ∀ (id : Int) (n : Nat), Takes
      (do
        let strokes ← Stroke.read.times n
        return ({ id, strokes } : Gesture))
      fun g h => g.id = id ∧ g.strokes.length = n ∧
        Joined (fun s : Stroke => Writes s.parts) g.strokes h := by
    intro id n
    refine ((takes_times Stroke.takes_read n).map (Gesture.mk id)).congr fun g h => ?_
    refine ⟨?_, ?_⟩
    · intro h
      obtain ⟨strokes, ⟨hlen, hform⟩, rfl⟩ := h
      exact ⟨rfl, hlen, hform⟩
    · intro h
      obtain ⟨rfl, hlen, hform⟩ := h
      exact ⟨g.strokes, ⟨hlen, hform⟩, rfl⟩
  refine ((takes_long _).bind fun id => (takes_count _).bind (hstrokes id)).congr fun g f => ?_
  rw [writes_parts_split]
  refine ⟨?_, ?_⟩
  · intro h
    obtain ⟨_, f₁, _, hid, ⟨_, f₂, f₃, hn, ⟨rfl, rfl, hform⟩, rfl⟩, rfl⟩ := h
    exact ⟨f₁, f₂, f₃, hid, hn, hform, rfl⟩
  · intro h
    obtain ⟨f₁, f₂, f₃, hid, hn, hform, rfl⟩ := h
    exact ⟨g.id, f₁, _, hid, ⟨_, f₂, f₃, hn, ⟨rfl, rfl, hform⟩, rfl⟩, rfl⟩

end GestureStore
