/-
What goes into a feature vector.

A vector comes from where the pen was, stroke by stroke (`Gesture.geometry`), and from
the policy; identifier, label and times play no part in it (`extract_geometry`).  How
long it is follows from the sequence policy alone, as grid and samples are of a fixed
size.  So whatever was extracted under one policy can be measured against whatever
else was (`mismatch?_eq_none`).
-/
import GestureStore.Learner

namespace GestureStore

/-- Where the pen was, in the order of strokes and points. -/
def Gesture.geometry (g : Gesture) : List (List (Single × Single)) :=
  g.strokes.map fun s => s.points.map fun p => (p.x, p.y)

/-! ### Lengths -/

section
variable [Scalar α]

theorem Raster.size_foldl_give (size : Nat) (ds : List (Deposit α)) :
    ∀ cells : Array α, (ds.foldl (give size) cells).size = cells.size := by
  induction ds with
  | nil => intro cells; rfl
  | cons d rest ih =>
      intro cells
      rw [List.foldl_cons, ih, give, Array.size_modify]

theorem Raster.length_features (size : Nat) (paths : List (List (Vec α))) :
    (features size paths).length = size * size := by
  unfold features cells
  cases paths.flatten with
  | nil => exact List.length_replicate
  | cons first rest =>
      show (filled size _).toList.length = size * size
      rw [Array.length_toList, filled, size_foldl_give, Array.size_replicate]

theorem Path.length_resample [Space V α] (first : V) (rest : List V) (n : Nat) :
    (resample first rest n).length = n := by
  unfold resample
  cases segmentsFrom first Scalar.zero rest with
  | nil => exact List.length_replicate
  | cons s later =>
      dsimp only
      split
      · exact List.length_replicate
      · rw [List.length_map, List.length_range]

theorem Shape.length_straightened (points : List (Vec α)) :
    (straightened points).length = points.length := by
  cases points with
  | nil => rfl
  | cons first rest => exact List.length_map _

omit [Scalar α] in
theorem Shape.length_flattened (points : List (Vec α)) :
    (flattened points).length = points.length * 2 := by
  induction points with
  | nil => rfl
  | cons p rest ih =>
      have hcons : flattened (p :: rest) = [p.x, p.y] ++ flattened rest := rfl
      rw [hcons, List.length_append, ih, List.length_cons (a := p), Nat.succ_mul, Nat.add_comm]
      rfl

theorem Shape.length_normalized (v : List α) : (normalized v).length = v.length := by
  unfold normalized
  dsimp only
  split
  · exact List.length_map _
  · rfl

theorem Shape.length_features (orientation : Option Orientation) (n : Nat) (first : Vec α)
    (rest : List (Vec α)) : (features orientation n first rest).length = n * 2 := by
  have hcentered : (centered (Path.resample first rest n)).length = n := by
    rw [centered, List.length_map, Path.length_resample]
  rw [features, ofSamples, length_normalized, length_flattened]
  split
  · rw [length_straightened, hcentered]
  · rw [hcentered]

theorem Stroke.length_shape (orientation : Option Orientation) (s : Stroke) :
    (s.shape orientation : List α).length = shapeSamples * 2 := by
  unfold Stroke.shape
  cases hpath : (s.path : List (Vec α)) with
  | nil =>
      rw [Stroke.path, List.map_eq_nil_iff] at hpath
      exact absurd hpath s.nonempty
  | cons first rest => exact Shape.length_features orientation shapeSamples first rest

/-! ### What plays a part -/

theorem Gesture.paths_eq (g : Gesture) :
    (g.paths : List (List (Vec α)))
      = g.geometry.map fun s => s.map fun c => ⟨Scalar.ofSingle c.1, Scalar.ofSingle c.2⟩ := by
  rw [Gesture.paths, Gesture.geometry, List.map_map]
  refine List.map_congr_left fun s _ => ?_
  rw [Function.comp_apply, List.map_map]
  rfl

theorem Stroke.shape_congr {s t : Stroke}
    (h : (s.points.map fun p => (p.x, p.y)) = t.points.map fun p => (p.x, p.y))
    (orientation : Option Orientation) : (s.shape orientation : List α) = t.shape orientation := by
  have hpath : ∀ u : Stroke, (u.path : List (Vec α))
      = (u.points.map fun p => (p.x, p.y)).map
          fun c => ⟨Scalar.ofSingle c.1, Scalar.ofSingle c.2⟩ := by
    intro u
    rw [List.map_map]
    rfl
  unfold Stroke.shape
  rw [hpath s, hpath t, h]

variable [Stored β α]

/-- The two ways in which a gesture gives an instance. -/
theorem Instance.extract_cases {policy : Policy} {label : Option Text} {g : Gesture}
    {i : Instance β} (h : extract policy label g = .ok i) :
    (policy.sequence = .invariant ∧ g.strokes ≠ [] ∧
        i = ⟨(Raster.features rasterSize g.paths).map Stored.store, label, g.id, .invariant, none⟩) ∨
      (policy.sequence = .sensitive ∧ ∃ s, g.strokes = [s] ∧
        i = ⟨(s.shape policy.orientation).map Stored.store, label, g.id, .sensitive,
          policy.orientation⟩) := by
  unfold extract at h
  cases hstrokes : g.strokes with
  | nil => simp [hstrokes] at h
  | cons s rest =>
      cases hseq : policy.sequence with
      | invariant =>
          simp only [hstrokes, hseq] at h
          exact Or.inl ⟨rfl, by simp, (Except.ok.inj h).symm⟩
      | sensitive =>
          cases rest with
          | nil =>
              simp only [hstrokes, hseq] at h
              exact Or.inr ⟨rfl, s, rfl, (Except.ok.inj h).symm⟩
          | cons s' rest => simp [hstrokes, hseq] at h

/-- What cannot be extracted is refused as input. -/
theorem Instance.extract_eq_error {policy : Policy} {label : Option Text} {g : Gesture} {e : Fault}
    (h : (extract policy label g : Except Fault (Instance β)) = .error e) :
    ∃ cause, e = .input cause := by
  unfold extract at h
  split at h <;> cases h <;> exact ⟨_, rfl⟩

theorem Instance.length_vector {policy : Policy} {label : Option Text} {g : Gesture}
    {i : Instance β} (h : extract policy label g = .ok i) :
    i.vector.length = policy.sequence.vectorLength := by
  rcases extract_cases h with ⟨hseq, -, rfl⟩ | ⟨hseq, s, -, rfl⟩
  · rw [hseq, List.length_map, Raster.length_features]
    rfl
  · rw [hseq, List.length_map, Stroke.length_shape]
    rfl

/-- **Gestures drawn alike give the same instance, apart from label and identifier.** -/
theorem Instance.extract_geometry {policy : Policy} {label : Option Text} {g g' : Gesture}
    {i : Instance β} (h : extract policy label g = .ok i) (hgeometry : g.geometry = g'.geometry)
    (label' : Option Text) :
    extract policy label' g' = .ok { i with label := label', id := g'.id } := by
  rcases extract_cases h with ⟨hseq, hstrokes, rfl⟩ | ⟨hseq, s, hs, rfl⟩
  · have hstrokes' : g'.strokes ≠ [] := by
      intro hnil
      rw [Gesture.geometry, Gesture.geometry, hnil, List.map_nil, List.map_eq_nil_iff] at hgeometry
      exact hstrokes hgeometry
    obtain ⟨t, rest, ht⟩ := List.exists_cons_of_ne_nil hstrokes'
    rw [extract, ht, hseq, g.paths_eq, hgeometry, ← g'.paths_eq]
  · rw [Gesture.geometry, Gesture.geometry, hs, List.map_singleton] at hgeometry
    obtain ⟨t, ht, hpoints⟩ := List.map_eq_singleton_iff.mp hgeometry.symm
    rw [extract, ht, hseq]
    dsimp only
    rw [Stroke.shape_congr hpoints]

/--
What was extracted under one policy cannot be measured under another.

It can only where order counts under both or under neither.  Where it counts, rotation
has to be treated alike as well, unless the policy in force asks for no style.
-/
def Policy.Clashes (old now : Policy) : Prop :=
  old.sequence ≠ now.sequence ∨
    old.sequence = .sensitive ∧ ∃ o, now.orientation = some o ∧ old.orientation ≠ some o

/-- No policy is at odds with itself. -/
theorem Policy.not_clashes_self (p : Policy) : ¬ p.Clashes p := by
  intro h
  rcases h with h | ⟨-, o, ho, hne⟩
  · exact h rfl
  · exact hne ho

/-- **A query is refused exactly if the policies clash, and never for the length of its vector.** -/
theorem Learner.mismatch?_cases {old now : Policy} {label label' : Option Text} {g g' : Gesture}
    {i j : Instance β} (hi : Instance.extract now label g = .ok i)
    (hj : Instance.extract old label' g' = .ok j) :
    (¬ old.Clashes now ∧
        mismatch? (⟨i.sequence, i.vector.map Stored.fetch, i.orientation⟩ : Query α) j = none) ∨
      (old.Clashes now ∧ ∃ fault,
        mismatch? (⟨i.sequence, i.vector.map Stored.fetch, i.orientation⟩ : Query α) j = some fault ∧
          ∀ m n, fault ≠ .length m n) := by
  have hlength : old.sequence = now.sequence →
      j.vector.length = (i.vector.map Stored.fetch).length := by
    intro h
    rw [List.length_map, Instance.length_vector hi, Instance.length_vector hj, h]
  unfold mismatch? Policy.Clashes
  rcases Instance.extract_cases hi with ⟨hnow, -, rfl⟩ | ⟨hnow, s, -, rfl⟩ <;>
    rcases Instance.extract_cases hj with ⟨hold, -, rfl⟩ | ⟨hold, t, -, rfl⟩ <;>
    dsimp only
  · rw [if_neg (by simp), if_neg (by simpa using hlength (hold.trans hnow.symm))]
    exact Or.inl ⟨by simp [hold, hnow], rfl⟩
  · exact Or.inr ⟨Or.inl (by simp [hold, hnow]), _, if_pos (by simp), by simp⟩
  · exact Or.inr ⟨Or.inl (by simp [hold, hnow]), _, if_pos (by simp), by simp⟩
  · rw [if_neg (by simp), if_neg (by simpa using hlength (hold.trans hnow.symm))]
    cases now.orientation with
    | none => exact Or.inl ⟨by simp [hold, hnow], rfl⟩
    | some o =>
        by_cases ho : old.orientation = some o
        · exact Or.inl ⟨by simp [hold, hnow, ho], if_neg (by simp [ho])⟩
        · exact Or.inr ⟨Or.inr ⟨hold, o, rfl, ho⟩, _, if_pos ho, by simp⟩

/-- What was extracted under one policy can be measured. -/
theorem Learner.mismatch?_eq_none {policy : Policy} {label label' : Option Text} {g g' : Gesture}
    {i j : Instance β} (hi : Instance.extract policy label g = .ok i)
    (hj : Instance.extract policy label' g' = .ok j) :
    mismatch? (⟨i.sequence, i.vector.map Stored.fetch, i.orientation⟩ : Query α) j = none := by
  rcases mismatch?_cases hi hj with ⟨-, hnone⟩ | ⟨hclash, -⟩
  · exact hnone
  · exact absurd hclash policy.not_clashes_self

end

end GestureStore
