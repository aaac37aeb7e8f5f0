/-
Why a trace cannot be read.

Values are read from left to right, and the first one that cannot be read is why
nothing is.  Almost always that is one of the causes that are reported as a malformed
trace.  The exceptions are numbers that are of the right kind but out of range: an
integer too large to be a coordinate, an infinity for a timestamp or an identifier, and
a timestamp of more than 64 bits.  `Overflows` says, of each kind of value, that such a
number is the first thing in it that cannot be read.

A number that is out of range once it is rounded to single precision is not among them;
it is refused like an infinite coordinate.
-/
import GestureStore.Command.Run

namespace GestureStore

/-! ### The first that is bad -/

/-- Going through a list comes upon something bad, after nothing that is not good. -/
inductive FirstBad (good bad : α → Prop) : List α → Prop where
  /-- The next one is it. -/
  | here {a : α} {rest : List α} (h : bad a) : FirstBad good bad (a :: rest)
  /-- The next one is good. -/
  | later {a : α} {rest : List α} (h : good a) (hrest : FirstBad good bad rest) :
      FirstBad good bad (a :: rest)

@[simp] theorem not_firstBad_nil {good bad : α → Prop} : ¬ FirstBad good bad [] := by
  intro h
  cases h

@[simp] theorem firstBad_cons {good bad : α → Prop} {a : α} {rest : List α} :
    FirstBad good bad (a :: rest) ↔ bad a ∨ good a ∧ FirstBad good bad rest := by
  constructor
  · intro h
    cases h with
    | here hbad => exact .inl hbad
    | later hgood hrest => exact .inr ⟨hgood, hrest⟩
  · rintro (hbad | ⟨hgood, hrest⟩)
    · exact .here hbad
    · exact .later hgood hrest

/-- Where everything is good or bad, something bad is enough. -/
theorem firstBad_iff_exists {good bad : α → Prop} (h : ∀ a, good a ∨ bad a) (as : List α) :
    FirstBad good bad as ↔ ∃ a ∈ as, bad a := by
  induction as with
  | nil => simp
  | cons a rest ih =>
      rw [firstBad_cons, ih]
      by_cases hbad : bad a
      · simp [hbad]
      · simp [hbad, (h a).resolve_right hbad]

/-! ### What is out of range -/

/-- An integer that no floating-point number is near to. -/
def Value.Huge (v : Value) : Prop := ∃ i, v = .int i ∧ (floatOfInteger i).isInf = true

/-- A floating-point number that is an infinity. -/
def Value.Endless (v : Value) : Prop :=
  ∃ x negative, v = .float x ∧ Double.ofFloat x = .infinity negative

/-- A point with a number that is out of range before all else that is wrong with it. -/
inductive LoosePoint.Overflows (v : Value) : Prop where
  | x {x y t : Value} (hitems : v.items = .ok [x, y, t]) (hx : x.Huge)
  | y {x y t : Value} {a : Float} (hitems : v.items = .ok [x, y, t]) (hx : x.toFloat = .ok a)
      (hy : y.Huge)
  | t {x y t : Value} {a b : Float} (hitems : v.items = .ok [x, y, t]) (hx : x.toFloat = .ok a)
      (hy : y.toFloat = .ok b) (ht : t.Endless)

theorem LoosePoint.Overflows.exists_items {v : Value} (h : LoosePoint.Overflows v) :
    ∃ x y t, v.items = .ok [x, y, t] := by
  cases h with
  | x hitems => exact ⟨_, _, _, hitems⟩
  | y hitems => exact ⟨_, _, _, hitems⟩
  | t hitems => exact ⟨_, _, _, hitems⟩

/-- A stroke with such a point, or one whose points can all be read but not all be stored. -/
inductive Stroke.Overflows (v : Value) : Prop where
  | point {points : List Value} (hitems : v.items = .ok points)
      (hpoint : FirstBad (fun p => ∃ q, LoosePoint.ofValue p = .ok q) LoosePoint.Overflows points)
  | timestamp {points : List Value} {loose : List LoosePoint} {p : LoosePoint}
      (hitems : v.items = .ok points) (hloose : points.mapM LoosePoint.ofValue = .ok loose)
      (hp : p ∈ loose) (ht : ¬ Bytes.fits 8 p.t)

/-- A gesture with such a stroke, or one with good strokes and an infinity for its identifier. -/
inductive Gesture.Overflows (v : Value) : Prop where
  | stroke {fields : List (Text × Value)} {strokes : Value} {items : List Value}
      (hfields : v = .object fields) (hstrokes : Value.lookup strokesField fields = some strokes)
      (hitems : strokes.items = .ok items)
      (hstroke : FirstBad (fun s => ∃ r, Stroke.ofValue s = .ok r) Stroke.Overflows items)
  | id {fields : List (Text × Value)} {strokes : List Stroke} {id : Value}
      (hfields : v = .object fields) (hstrokes : strokesOfFields fields = .ok strokes)
      (hid : Value.lookup idField fields = some id) (hendless : id.Endless)

/-- A value that is read as a gesture. -/
def Gesture.Readable (v : Value) : Prop := ∃ supply g, (ofValue v supply).1 = .ok g

namespace Command

/-- A trace with a gesture that has a number out of range, before all else that is wrong. -/
def Overflows (bytes : Bytes) : Prop :=
  ∃ text v items, Utf8.decode bytes = .ok text ∧ Json.read maxTraceDepth text = .ok v ∧
    traceItems v = .ok items ∧ FirstBad Gesture.Readable Gesture.Overflows items

/-! ### How reading ends -/

/-- Reading comes to its end, to what is out of range, or to a fault that is reported. -/
def Reads (outcome : Except Fault α) (overflows : Prop) : Prop :=
  match outcome with
  | .ok _ => ¬ overflows
  | .error e => (e = .outOfRange ∧ overflows) ∨ (isMalformed e = true ∧ ¬ overflows)

variable {outcome : Except Fault α} {p q : Prop}

theorem Reads.congr (h : Reads outcome p) (hpq : p ↔ q) : Reads outcome q := by
  rwa [← propext hpq]

theorem reads_ok (h : ¬ p) (a : α) : Reads (.ok a) p := h

theorem reads_outOfRange (h : p) : Reads (.error .outOfRange : Except Fault α) p := .inl ⟨rfl, h⟩

theorem reads_error {e : Fault} (he : isMalformed e = true) (h : ¬ p) :
    Reads (.error e : Except Fault α) p :=
  .inr ⟨he, h⟩

/-- What is read in two steps is out of range in the first, or in the second after the first. -/
theorem Reads.bind {next : α → Except Fault β} {q : α → Prop} (h : Reads outcome p)
    (hnext : ∀ a, outcome = .ok a → Reads (next a) (q a)) :
    Reads (outcome >>= next) (p ∨ ∃ a, outcome = .ok a ∧ q a) := by
  cases outcome with
  | error e => exact h.imp (And.imp_right .inl) (And.imp_right fun hp => by simpa using hp)
  | ok a =>
      have hp : ¬ p := h
      exact (hnext a rfl).congr (by simp [hp])

/-- What is read item by item is out of range where the first item is that cannot be read. -/
theorem reads_mapM {f : α → Except Fault β} {bad : α → Prop} (h : ∀ a, Reads (f a) (bad a))
    (as : List α) : Reads (as.mapM f) (FirstBad (fun a => ∃ b, f a = .ok b) bad as) := by
  induction as with
  | nil => exact reads_ok not_firstBad_nil []
  | cons a rest ih =>
      rw [List.mapM_cons]
      refine ((h a).bind fun b _ => ih.bind fun bs _ => reads_ok not_false (b :: bs)).congr ?_
      simp

/-! ### Values -/

theorem reads_items (v : Value) : Reads v.items False := by
  unfold Value.items
  split
  all_goals first | exact reads_ok not_false _ | exact reads_error rfl not_false

theorem reads_fields (v : Value) : Reads v.fields False := by
  unfold Value.fields
  split
  · exact reads_ok not_false _
  · exact reads_error rfl not_false

theorem reads_floatOfInt (i : Int) :
    Reads (Value.floatOfInt i) ((floatOfInteger i).isInf = true) := by
  unfold Value.floatOfInt
  dsimp only
  split
  · rename_i h
    exact reads_outOfRange h
  · rename_i h
    exact reads_ok h _

theorem reads_toFloat (v : Value) : Reads v.toFloat v.Huge := by
  cases v with
  | int i => exact (reads_floatOfInt i).congr (by simp [Value.Huge])
  | text t =>
      unfold Value.toFloat
      dsimp only
      split
      · exact reads_ok (by simp [Value.Huge]) _
      · exact reads_error rfl (by simp [Value.Huge])
  | bool | float => exact reads_ok (by simp [Value.Huge]) _
  | null | moment | list | object => exact reads_error rfl (by simp [Value.Huge])

theorem reads_truncate (x : Float) :
    Reads (Value.truncate x) (∃ negative, Double.ofFloat x = .infinity negative) := by
  unfold Value.truncate
  cases hx : Double.ofFloat x with
  | nan => exact reads_error rfl (by simp)
  | infinity negative => exact reads_outOfRange ⟨negative, rfl⟩
  | finite negative m q => exact reads_ok (by simp) _

theorem reads_toInt (v : Value) : Reads v.toInt v.Endless := by
  cases v with
  | float x => exact (reads_truncate x).congr (by simp [Value.Endless])
  | text t =>
      unfold Value.toInt
      dsimp only
      split
      · exact reads_ok (by simp [Value.Endless]) _
      · exact reads_error rfl (by simp [Value.Endless])
  | bool | int => exact reads_ok (by simp [Value.Endless]) _
  | null | moment | list | object => exact reads_error rfl (by simp [Value.Endless])

/-! ### Points and strokes -/

theorem reads_loosePoint (v : Value) : Reads (LoosePoint.ofValue v) (LoosePoint.Overflows v) := by
  unfold LoosePoint.ofValue
  have hread := reads_items v
  cases hitems : v.items with
  | error e =>
      rw [hitems] at hread
      refine hread.congr ⟨False.elim, ?_⟩
      intro h
      obtain ⟨x, y, t, h⟩ := h.exists_items
      rw [hitems] at h
      cases h
  | ok items =>
      have hthree : LoosePoint.Overflows v → items.length = 3 := by
        intro h
        obtain ⟨x, y, t, h⟩ := h.exists_items
        cases hitems.symm.trans h
        rfl
      have hother : items.length ≠ 3 → ¬ LoosePoint.Overflows v := mt hthree
      rcases items with _ | ⟨x, _ | ⟨y, _ | ⟨t, _ | ⟨w, rest⟩⟩⟩⟩
      · exact reads_error rfl (hother (by simp))
      · exact reads_error rfl (hother (by simp))
      · exact reads_error rfl (hother (by simp))
      · refine ((reads_toFloat x).bind fun a _ => (reads_toFloat y).bind fun b _ =>
          (reads_toInt t).bind fun i _ => reads_ok not_false _).congr ?_
        constructor
        · rintro (hx | ⟨a, hx, hy | ⟨b, hy, ht | ⟨-, -, hnone⟩⟩⟩)
          · exact .x hitems hx
          · exact .y hitems hx hy
          · exact .t hitems hx hy ht
          · exact hnone.elim
        · intro h
          cases h with
          | x h hx =>
              cases hitems.symm.trans h
              exact .inl hx
          | y h hx hy =>
              cases hitems.symm.trans h
              exact .inr ⟨_, hx, .inl hy⟩
          | t h hx hy ht =>
              cases hitems.symm.trans h
              exact .inr ⟨_, hx, .inr ⟨_, hy, .inl ht⟩⟩
      · exact reads_error rfl (hother (by simp))

theorem reads_timestamp (t : Int) : Reads (LoosePoint.timestamp t) (¬ Bytes.fits 8 t) := by
  unfold LoosePoint.timestamp
  by_cases h : Bytes.fits 8 t
  · rw [if_pos h]
    exact reads_ok (fun hnot => hnot h) _
  · rw [if_neg h]
    exact reads_outOfRange h

theorem reads_fit (p : LoosePoint) : Reads p.fit (¬ Bytes.fits 8 p.t) :=
  ((reads_timestamp p.t).bind fun _ _ => reads_ok not_false _).congr (by simp)

/-- A point that cannot be stored is out of range, so the first of them is. -/
theorem reads_fits (loose : List LoosePoint) :
    Reads (loose.mapM LoosePoint.fit) (∃ p ∈ loose, ¬ Bytes.fits 8 p.t) := by
  refine (reads_mapM reads_fit loose).congr (firstBad_iff_exists (fun p => ?_) loose)
  by_cases h : Bytes.fits 8 p.t
  · left
    refine ⟨⟨Single.ofFloat p.x, Single.ofFloat p.y, Int64.ofInt p.t⟩, ?_⟩
    unfold LoosePoint.fit LoosePoint.timestamp
    rw [if_pos h]
    rfl
  · exact .inr h

theorem reads_ofPoints (points : List Point) : Reads (Stroke.ofPoints points) False := by
  unfold Stroke.ofPoints
  split
  · split
    · exact reads_ok not_false _
    · exact reads_error rfl not_false
  · exact reads_error rfl not_false

theorem reads_stroke (v : Value) : Reads (Stroke.ofValue v) (Stroke.Overflows v) := by
  refine ((reads_items v).bind fun points _ => (reads_mapM reads_loosePoint points).bind
    fun loose _ => (reads_fits loose).bind fun ps _ => reads_ofPoints ps).congr ?_
  constructor
  · rintro (hnone | ⟨points, hitems, hpoint | ⟨loose, hloose, ⟨p, hp, ht⟩ | ⟨-, -, hnone⟩⟩⟩)
    · exact hnone.elim
    · exact .point hitems hpoint
    · exact .timestamp hitems hloose hp ht
    · exact hnone.elim
  · intro h
    cases h with
    | point hitems hpoint => exact .inr ⟨_, hitems, .inl hpoint⟩
    | timestamp hitems hloose hp ht => exact .inr ⟨_, hitems, .inr ⟨_, hloose, .inl ⟨_, hp, ht⟩⟩⟩

/-! ### Gestures -/

theorem reads_strokes (fields : List (Text × Value)) :
    Reads (Gesture.strokesOfFields fields) (∃ strokes items,
      Value.lookup Gesture.strokesField fields = some strokes ∧ strokes.items = .ok items ∧
        FirstBad (fun s => ∃ r, Stroke.ofValue s = .ok r) Stroke.Overflows items) := by
  unfold Gesture.strokesOfFields
  cases Value.lookup Gesture.strokesField fields with
  | none => exact reads_ok (by simp) _
  | some v =>
      exact ((reads_items v).bind fun items _ => reads_mapM reads_stroke items).congr (by simp)

theorem reads_withId (strokes : List Stroke) (id : Value) (supply : Supply) :
    Reads (Gesture.withId strokes id supply).1 id.Endless := by
  have hread := reads_toInt id
  unfold Gesture.withId
  split
  · exact reads_ok (by simp [Value.Endless]) _
  · cases hid : id.toInt with
    | ok i =>
        rw [hid] at hread
        exact hread
    | error e =>
        rw [hid] at hread
        exact hread

theorem eq_object {v : Value} {fields : List (Text × Value)} (h : v.fields = .ok fields) :
    v = .object fields := by
  cases v with
  | object => exact congrArg Value.object (Except.ok.inj h)
  | null | bool | int | float | text | moment | list => cases h

/-- Where there is nothing under a name there is no infinity. -/
theorem exists_of_endless {name : Text} {fields : List (Text × Value)}
    (h : ((Value.lookup name fields).getD .null).Endless) :
    ∃ v, Value.lookup name fields = some v := by
  cases hv : Value.lookup name fields with
  | some v => exact ⟨v, rfl⟩
  | none =>
      rw [hv] at h
      simp [Value.Endless] at h

theorem ofValue_fst (v : Value) (supply : Supply) :
    (Gesture.ofValue v supply).1 = v.fields >>= fun fields =>
      Gesture.strokesOfFields fields >>= fun strokes =>
        (Gesture.withId strokes ((Value.lookup Gesture.idField fields).getD .null) supply).1 := by
  unfold Gesture.ofValue
  cases v.fields with
  | error e => rfl
  | ok fields =>
      dsimp only
      show _ = Gesture.strokesOfFields fields >>= _
      cases Gesture.strokesOfFields fields with
      | error e => rfl
      | ok strokes => rfl

theorem reads_gesture (v : Value) (supply : Supply) :
    Reads (Gesture.ofValue v supply).1 (Gesture.Overflows v) := by
  rw [ofValue_fst]
  refine ((reads_fields v).bind fun fields _ => (reads_strokes fields).bind fun strokes _ =>
    reads_withId strokes _ supply).congr ?_
  constructor
  · rintro (hnone | ⟨fields, hfields, ⟨strokes, items, hstrokes, hitems, hfirst⟩ |
      ⟨strokes, hstrokes, hid⟩⟩)
    · exact hnone.elim
    · exact .stroke (eq_object hfields) hstrokes hitems hfirst
    · obtain ⟨id, hsome⟩ := exists_of_endless hid
      rw [hsome, Option.getD_some] at hid
      exact .id (eq_object hfields) hstrokes hsome hid
  · intro h
    cases h with
    | stroke hfields hstrokes hitems hfirst =>
        exact .inr ⟨_, congrArg Value.fields hfields, .inl ⟨_, _, hstrokes, hitems, hfirst⟩⟩
    | id hfields hstrokes hid hendless =>
        refine .inr ⟨_, congrArg Value.fields hfields, .inr ⟨_, hstrokes, ?_⟩⟩
        rw [hid]
        exact hendless

theorem exists_withId {strokes : List Stroke} {id : Value} {supply : Supply} {g : Gesture}
    (h : (Gesture.withId strokes id supply).1 = .ok g) (supply' : Supply) :
    ∃ g', (Gesture.withId strokes id supply').1 = .ok g' := by
  cases id with
  | null => exact ⟨_, rfl⟩
  | bool | int | float | text | moment | list | object => exact ⟨g, h⟩

/-- Whether a value is read as a gesture has nothing to do with what identifiers are left. -/
theorem readable_iff (v : Value) (supply : Supply) :
    Gesture.Readable v ↔ ∃ g, (Gesture.ofValue v supply).1 = .ok g := by
  refine ⟨?_, fun ⟨g, hg⟩ => ⟨supply, g, hg⟩⟩
  rintro ⟨supply', g, hg⟩
  rw [ofValue_fst] at hg ⊢
  cases hfields : v.fields with
  | error e =>
      rw [hfields] at hg
      cases hg
  | ok fields =>
      rw [hfields] at hg
      change Gesture.strokesOfFields fields >>= _ = _ at hg
      show ∃ g, Gesture.strokesOfFields fields >>= _ = .ok g
      cases hstrokes : Gesture.strokesOfFields fields with
      | error e =>
          rw [hstrokes] at hg
          cases hg
      | ok strokes =>
          rw [hstrokes] at hg
          exact exists_withId hg supply

theorem ofValues_cons (v : Value) (rest : List Value) (supply : Supply) :
    (Gesture.ofValues (v :: rest) supply).1 = (Gesture.ofValue v supply).1 >>= fun g =>
      (Gesture.ofValues rest (Gesture.ofValue v supply).2).1 >>= fun gs => .ok (g :: gs) := by
  rw [Gesture.ofValues]
  rcases Gesture.ofValue v supply with ⟨e | g, supply'⟩
  · rfl
  · dsimp only
    show _ = (Gesture.ofValues rest supply').1 >>= _
    rcases Gesture.ofValues rest supply' with ⟨e | gs, later⟩
    · rfl
    · rfl

theorem reads_gestures (vs : List Value) (supply : Supply) :
    Reads (Gesture.ofValues vs supply).1 (FirstBad Gesture.Readable Gesture.Overflows vs) := by
  induction vs generalizing supply with
  | nil => exact reads_ok not_firstBad_nil []
  | cons v rest ih =>
      rw [ofValues_cons]
      refine ((reads_gesture v supply).bind fun g _ => (ih _).bind fun gs _ =>
        reads_ok not_false (g :: gs)).congr ?_
      rw [firstBad_cons, readable_iff v supply]
      simp

/-! ### Traces -/

theorem reads_traceItems (v : Value) : Reads (traceItems v) False := by
  unfold traceItems
  split
  · exact reads_items _
  · exact reads_items _

end Command
end GestureStore
