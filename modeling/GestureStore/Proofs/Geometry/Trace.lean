/-
A gesture is read back from its value.

The value of a gesture holds its coordinates in double precision, and reading narrows them
again, so nothing is left of the way there and back (`Point.fit_toLoose`).  The points of a
stroke are finite and there is one, which is all that reading asks of them.  An identifier
stands in the value, so none is taken from the supply.

Whatever else a gesture was read from, texts or numbers that had to be rounded, all that
was lost was lost then: its own value is read as itself.
-/
import GestureStore.Geometry.Trace
import GestureStore.Proofs.Number.Narrowing
import GestureStore.Proofs.Wire.Gesture

namespace GestureStore

/-- A list of values is read item by item. -/
theorem mapM_map_ok {f : β → Except Fault γ} {value : α → β} {g : α → γ} {as : List α}
    (h : ∀ a ∈ as, f (value a) = .ok (g a)) : (as.map value).mapM f = .ok (as.map g) := by
  induction as with
  | nil => rfl
  | cons a rest ih =>
      rw [List.map_cons, List.mapM_cons, h a (List.mem_cons_self ..),
        ih fun b hb => h b (List.mem_cons_of_mem a hb)]
      rfl

/-! ### Points -/

namespace Point

/-- The point with its coordinates in double precision. -/
def toLoose (p : Point) : LoosePoint := ⟨p.x.toFloat, p.y.toFloat, p.t.toInt⟩

/-- The point as a value. -/
def toValue (p : Point) : Value := .list [.float p.x.toFloat, .float p.y.toFloat, .int p.t.toInt]

theorem ofValue_toValue (p : Point) : LoosePoint.ofValue p.toValue = .ok p.toLoose := rfl

/-- **A finite point is fitted into the bits it was made of.** -/
theorem fit_toLoose {p : Point} (h : p.isFinite = true) : p.toLoose.fit = .ok p := by
  obtain ⟨hx, hy⟩ := Bool.and_eq_true_iff.mp h
  have ht : LoosePoint.timestamp p.t.toInt = .ok p.t := by
    have hlow := p.t.le_toInt
    have hhigh := p.t.toInt_lt
    have hfits : Bytes.fits 8 p.t.toInt = true := by
      rw [Bytes.fits_iff]
      omega
    rw [LoosePoint.timestamp, if_pos hfits, Int64.ofInt_toInt]
  unfold LoosePoint.fit toLoose
  dsimp only
  rw [ht, Single.ofFloat_toFloat hx, Single.ofFloat_toFloat hy]
  rfl

end Point

/-! ### Strokes and gestures -/

theorem Stroke.ofValue_toValue (s : Stroke) : ofValue s.toValue = .ok s := by
  have hloose : (s.points.map Point.toValue).mapM LoosePoint.ofValue
      = .ok (s.points.map Point.toLoose) :=
    mapM_map_ok fun p _ => p.ofValue_toValue
  have hpoints : (s.points.map Point.toLoose).mapM LoosePoint.fit
      = .ok (s.points.map fun p => p) :=
    mapM_map_ok fun p hp => Point.fit_toLoose (List.all_eq_true.mp s.finite p hp)
  have hstroke : ofPoints s.points = .ok s := ofPoints_eq_ok_iff.mpr rfl
  show ((s.points.map Point.toValue).mapM LoosePoint.ofValue >>= fun loose =>
    loose.mapM LoosePoint.fit >>= ofPoints) = .ok s
  rw [hloose]
  show ((s.points.map Point.toLoose).mapM LoosePoint.fit >>= ofPoints) = .ok s
  rw [hpoints, List.map_id']
  exact hstroke

theorem Gesture.ofValue_toValue (g : Gesture) (supply : Supply) :
    ofValue g.toValue supply = (.ok g, supply) := by
  have hstrokes : (g.strokes.map Stroke.toValue).mapM Stroke.ofValue
      = .ok (g.strokes.map fun s => s) :=
    mapM_map_ok fun s _ => s.ofValue_toValue
  rw [List.map_id'] at hstrokes
  have hfields : strokesOfFields
      [(idField, .int g.id), (strokesField, .list (g.strokes.map Stroke.toValue))]
      = .ok g.strokes := hstrokes
  unfold ofValue toValue Value.fields
  dsimp only
  rw [hfields]
  rfl

/--
**A gesture is read back from its value as it was.**

A finite number is the same bits again after it was widened and narrowed.  So reading the
value of a gesture succeeds, takes nothing from the supply, and gives the gesture itself:
its identifier and, bit for bit, its strokes, with all that is extracted from them or
written for them.  Whatever value a gesture was read from, the value it then has is read as
a gesture with that same value.
-/
theorem gesture_is_read_back_from_its_value :
    (∀ s : Single, s.isFinite = true → Single.ofFloat s.toFloat = s) ∧
    (∀ (g : Gesture) (supply : Supply), Gesture.ofValue g.toValue supply = (.ok g, supply)) ∧
    ∀ (v : Value) (supply supply' : Supply) (g : Gesture),
      Gesture.ofValue v supply = (.ok g, supply') →
      ∀ later : Supply, ∃ g' : Gesture,
        Gesture.ofValue g.toValue later = (.ok g', later) ∧ g'.toValue = g.toValue :=
  ⟨fun _ => Single.ofFloat_toFloat, Gesture.ofValue_toValue,
    fun _ _ _ g _ later => ⟨g, g.ofValue_toValue later, rfl⟩⟩

/-- A tap whose coordinates came as a text and as a truth value has its value once it was read. -/
theorem loose_tap_is_read_back :
    let loose : Value := .object [(Gesture.strokesField,
      .list [.list [.list [.text (Text.of "0.1"), .bool true, .int 7]]])]
    let tap : Gesture := ⟨1000, [⟨[⟨⟨0x3DCCCCCD⟩, ⟨0x3F800000⟩, 7⟩], by simp, by decide⟩]⟩
    Single.isFinite ⟨1⟩ = true ∧ Single.ofFloat (Single.toFloat ⟨1⟩) = ⟨1⟩ ∧
    Gesture.ofValue loose ⟨1000⟩ = (.ok tap, ⟨1001⟩) ∧
      ∃ g' : Gesture, Gesture.ofValue tap.toValue ⟨5⟩ = (.ok g', ⟨5⟩) ∧ g'.toValue = tap.toValue := by
  intro loose tap
  obtain ⟨hnumber, -, hvalue⟩ := gesture_is_read_back_from_its_value
  have hleast : Single.isFinite ⟨1⟩ = true := by decide
  have htap : Gesture.ofValue loose ⟨1000⟩ = (.ok tap, ⟨1001⟩) := by decide +kernel
  exact ⟨hleast, hnumber ⟨1⟩ hleast, htap, hvalue loose ⟨1000⟩ ⟨1001⟩ tap htap ⟨5⟩⟩

end GestureStore
