/-
How readers fail.

`Takes` says where a reader gets past something.  Where it does not it fails, and
`Refuses` says how: with which fault, on which bytes, and what is left behind them.  The
law composes as `Takes` does.  A reader of two parts fails where the first part does, or
behind something that the first part takes where the second one does.

There are two ways to fail.  A value that is cut off uses up all there is of it, so
nothing is left (`Cut`).  A value that is there but no good is refused behind its bytes,
and what follows does not matter.  `Stroke.Refused` and `Gesture.Refused` list all cases
there are, and with them it is settled what reading a gesture does to any bytes.

Both laws cut the bytes in two.  Where the cut is can also be said by a number, which is
how many bytes the reader has used up (`EndsAfter`).
-/
import GestureStore.Proofs.Wire.Gesture

namespace GestureStore
namespace Reader

/-- The reader fails with a fault on these bytes, with those behind them left, and not otherwise. -/
def Refuses (r : Reader α) (why : Fault → Bytes → Bytes → Prop) : Prop :=
  ∀ b e rest, r b = (.error e, rest) ↔ ∃ f, why e f rest ∧ b = f ++ rest

/-! ### Readers of several parts -/

theorem Refuses.congr {r : Reader α} {why why' : Fault → Bytes → Bytes → Prop} (hr : r.Refuses why)
    (h : ∀ e f rest, why e f rest ↔ why' e f rest) : r.Refuses why' := by
  intro b e rest
  rw [hr b e rest]
  simp only [h]

theorem Refuses.read {r : Reader α} {why : Fault → Bytes → Bytes → Prop} (hr : r.Refuses why)
    {e : Fault} {f rest : Bytes} (h : why e f rest) : r (f ++ rest) = (.error e, rest) :=
  (hr _ _ _).mpr ⟨f, h, rfl⟩

theorem refuses_pure (a : α) : Refuses (Pure.pure a : Reader α) fun _ _ _ => False := by
  intro b e rest
  show (Except.ok a, b) = (.error e, rest) ↔ _
  simp

theorem refuses_fail (e : Fault) :
    Refuses (fail e : Reader α) fun e' f _ => e' = e ∧ f = [] := by
  intro b e' rest
  unfold fail
  constructor
  · intro h
    obtain ⟨he, hb⟩ := Prod.mk.inj h
    exact ⟨[], ⟨(Except.error.inj he).symm, rfl⟩, hb⟩
  · intro h
    obtain ⟨f, ⟨rfl, rfl⟩, rfl⟩ := h
    rfl

theorem refuses_ofExcept (outcome : Except Fault α) :
    (ofExcept outcome).Refuses fun e f _ => outcome = .error e ∧ f = [] := by
  cases outcome with
  | ok a => exact (refuses_pure a).congr fun e f rest => by simp
  | error e => exact (refuses_fail e).congr fun e' f rest => by simp [eq_comm]

/-- **One reader after the other fails where the first does, or behind it where the second does.** -/
theorem Refuses.bind {r : Reader α} {k : α → Reader β} {form : α → Bytes → Prop}
    {why : Fault → Bytes → Bytes → Prop} {why' : α → Fault → Bytes → Bytes → Prop}
    (htakes : r.Takes form) (hr : r.Refuses why) (hk : ∀ a, (k a).Refuses (why' a)) :
    (r >>= k).Refuses fun e f rest =>
      why e f rest ∨ ∃ a g h, form a g ∧ why' a e h rest ∧ f = g ++ h := by
  intro b e rest
  constructor
  · intro h
    rcases hrb : r b with ⟨outcome, middle⟩
    cases outcome with
    | error e' =>
        rw [bind_error hrb] at h
        obtain ⟨he, rfl⟩ := Prod.mk.inj h
        obtain rfl := Except.error.inj he
        obtain ⟨f, hf, rfl⟩ := (hr _ _ _).mp hrb
        exact ⟨f, Or.inl hf, rfl⟩
    | ok a =>
        rw [bind_ok hrb] at h
        obtain ⟨g, hg, rfl⟩ := (htakes _ _ _).mp hrb
        obtain ⟨f, hf, rfl⟩ := (hk a _ _ _).mp h
        exact ⟨g ++ f, Or.inr ⟨a, g, f, hg, hf, rfl⟩, (List.append_assoc _ _ _).symm⟩
  · intro h
    obtain ⟨f, hf | ⟨a, g, h, hg, hh, rfl⟩, rfl⟩ := h
    · exact bind_error (hr.read hf)
    · rw [List.append_assoc, bind_ok (htakes.read hg _)]
      exact (hk a).read hh

/-- Nothing fails that is computed from what was taken. -/
theorem Refuses.map {r : Reader α} {form : α → Bytes → Prop}
    {why : Fault → Bytes → Bytes → Prop} (htakes : r.Takes form) (hr : r.Refuses why)
    (g : α → β) : (r >>= fun a => Pure.pure (g a)).Refuses why := by
  refine (Refuses.bind htakes hr fun a => refuses_pure (g a)).congr fun e f rest => ?_
  simp

/-- Of several values so many are read, and the next one fails. -/
theorem run_fault_iff {r : Reader α} {form : α → Bytes → Prop}
    {why : Fault → Bytes → Bytes → Prop} (htakes : r.Takes form) (hr : r.Refuses why) :
    ∀ (n : Nat) (b : Bytes) (items : List α) (e : Fault) (rest : Bytes),
      run r n b = ⟨items, some e, rest⟩ ↔
        items.length < n ∧ ∃ g h, Joined form items g ∧ why e h rest ∧ b = g ++ (h ++ rest) := by
  intro n
  induction n with
  | zero => intro b items e rest; simp [run]
  | succ n ih =>
      intro b items e rest
      rw [run]
      constructor
      · intro h
        split at h
        · rename_i e' left hra
          obtain ⟨rfl, he, rfl⟩ := Run.mk.inj h
          obtain rfl := Option.some.inj he
          obtain ⟨f, hf, rfl⟩ := (hr _ _ _).mp hra
          exact ⟨Nat.succ_pos n, [], f, rfl, hf, rfl⟩
        · rename_i a middle hra
          obtain ⟨hitems, hfault, hrest⟩ := Run.mk.inj h
          obtain ⟨f, hf, rfl⟩ := (htakes _ _ _).mp hra
          obtain ⟨hlen, g, i, hg, hi, hmiddle⟩ := (ih middle _ e rest).mp
            (show run r n middle = ⟨(run r n middle).items, some e, rest⟩ by
              rw [← hfault, ← hrest])
          subst hitems
          refine ⟨Nat.succ_lt_succ hlen, f ++ g, i, ⟨f, g, hf, hg, rfl⟩, hi, ?_⟩
          rw [hmiddle, List.append_assoc]
      · intro h
        obtain ⟨hlen, g, i, hg, hi, rfl⟩ := h
        cases items with
        | nil =>
            obtain rfl : g = [] := hg
            rw [List.nil_append, hr.read hi]
        | cons a items =>
            obtain ⟨f, g, hf, hg, rfl⟩ := hg
            have hlater := (ih (g ++ (i ++ rest)) items e rest).mpr
              ⟨Nat.lt_of_succ_lt_succ hlen, g, i, hg, hi, rfl⟩
            rw [List.append_assoc, htakes.read hf]
            simp only [hlater]

theorem refuses_times {r : Reader α} {form : α → Bytes → Prop}
    {why : Fault → Bytes → Bytes → Prop} (htakes : r.Takes form) (hr : r.Refuses why) (n : Nat) :
    (r.times n).Refuses fun e f rest => ∃ items g h,
      items.length < n ∧ Joined form items g ∧ why e h rest ∧ f = g ++ h := by
  intro b e rest
  have hrun : (r.times n) b = (.error e, rest) ↔
      ∃ items, run r n b = ⟨items, some e, rest⟩ := by
    unfold times
    rcases run r n b with ⟨items, fault, left⟩
    cases fault <;> simp
  rw [hrun]
  simp only [run_fault_iff htakes hr]
  constructor
  · intro h
    obtain ⟨items, hlen, g, h, hg, hh, rfl⟩ := h
    exact ⟨g ++ h, ⟨items, g, h, hlen, hg, hh, rfl⟩, (List.append_assoc _ _ _).symm⟩
  · intro h
    obtain ⟨f, ⟨items, g, h, hlen, hg, hh, rfl⟩, rfl⟩ := h
    exact ⟨items, hlen, g, h, hg, hh, List.append_assoc _ _ _⟩

/-! ### Single fields -/

/-- There are no more bytes, and not so many as were asked for. -/
def Cut (size : Nat) (field : Text) (e : Fault) (f rest : Bytes) : Prop :=
  e = .decode (.endOfData field) ∧ f.length < size ∧ rest = []

theorem refuses_exactly (size : Nat) (field : Text) :
    (exactly size field).Refuses (Cut size field) := by
  intro b e rest
  obtain ⟨hbytes, hrest⟩ := pull_eq size b
  unfold exactly Cut
  simp only [hbytes, hrest]
  by_cases hshort : b.length < size
  · have hall : b.take size = b := List.take_of_length_le (Nat.le_of_lt hshort)
    have hnone : b.drop size = [] := List.drop_eq_nil_of_le (Nat.le_of_lt hshort)
    rw [hall, hnone, if_neg (Nat.ne_of_lt hshort)]
    constructor
    · intro h
      obtain ⟨he, rfl⟩ := Prod.mk.inj h
      exact ⟨b, ⟨(Except.error.inj he).symm, hshort, rfl⟩, (List.append_nil b).symm⟩
    · intro h
      obtain ⟨f, ⟨rfl, -, rfl⟩, -⟩ := h
      rfl
  · have hlen : (b.take size).length = size := List.length_take_of_le (Nat.le_of_not_lt hshort)
    rw [if_pos hlen]
    constructor
    · intro h
      simp at h
    · intro h
      obtain ⟨f, ⟨-, hf, rfl⟩, rfl⟩ := h
      rw [List.append_nil] at hshort
      exact absurd hf hshort

theorem refuses_integer (k : Nat) (field : Text) : (integer k field).Refuses (Cut k field) :=
  Refuses.map (takes_exactly k field) (refuses_exactly k field) Bytes.toInt

theorem refuses_long (field : Text) : (long field).Refuses (Cut 8 field) := refuses_integer 8 field

theorem refuses_points (n : Nat) (field : Text) :
    (points n field).Refuses (Cut (pointSize * n) field) :=
  Refuses.map (takes_exactly _ field) (refuses_exactly _ field) (pointsOfBytes n)

theorem refuses_count (field : Text) :
    (count field).Refuses fun e f rest => Cut 4 field e f rest ∨
      ∃ i < 0, e = .decode (.negativeCount field i) ∧ Writer.int i = .ok f := by
  have hsigned : ∀ i : Int, Refuses
      (if i < 0 then (fail (.decode (.negativeCount field i)) : Reader Nat)
        else Pure.pure i.toNat)
      fun e g _ => i < 0 ∧ e = .decode (.negativeCount field i) ∧ g = [] := by
    intro i
    by_cases hneg : i < 0
    · rw [if_pos hneg]
      exact (refuses_fail _).congr fun e g rest => (and_iff_right hneg).symm
    · rw [if_neg hneg]
      exact (refuses_pure _).congr fun e g rest => by simp [hneg]
  refine (Refuses.bind (takes_integer 4 field) (refuses_integer 4 field) hsigned).congr ?_
  intro e f rest
  refine or_congr_right ⟨?_, ?_⟩
  · intro h
    obtain ⟨i, g, _, hg, ⟨hneg, rfl, rfl⟩, rfl⟩ := h
    exact ⟨i, hneg, rfl, by rw [List.append_nil]; exact hg⟩
  · intro h
    obtain ⟨i, hneg, rfl, hf⟩ := h
    exact ⟨i, f, [], hf, ⟨hneg, rfl, rfl⟩, (List.append_nil f).symm⟩

/-! ### How far a reader gets -/

/-- The reader ends with an outcome behind so many of the bytes. -/
def EndsAfter (r : Reader α) (b : Bytes) (outcome : Except Fault α) (k : Nat) : Prop :=
  k ≤ b.length ∧ r b = (outcome, b.drop k)

private theorem exists_front_iff {b : Bytes} {k : Nat} {p : Bytes → Prop} :
    (∃ f, p f ∧ b = f ++ b.drop k) ↔ p (b.take k) := by
  constructor
  · intro h
    obtain ⟨f, hf, hb⟩ := h
    have hfront : b.take k = f := List.append_cancel_right ((List.take_append_drop k b).trans hb)
    rw [hfront]
    exact hf
  · intro h
    exact ⟨b.take k, h, (List.take_append_drop k b).symm⟩

/-- A value is read from the first bytes exactly if they are a form of it. -/
theorem Takes.endsAfter_iff {r : Reader α} {form : α → Bytes → Prop} (hr : r.Takes form)
    {b : Bytes} {a : α} {k : Nat} :
    r.EndsAfter b (.ok a) k ↔ k ≤ b.length ∧ form a (b.take k) := by
  unfold EndsAfter
  rw [hr, exists_front_iff]

theorem Refuses.endsAfter_iff {r : Reader α} {why : Fault → Bytes → Bytes → Prop}
    (hr : r.Refuses why) {b : Bytes} {e : Fault} {k : Nat} :
    r.EndsAfter b (.error e) k ↔ k ≤ b.length ∧ why e (b.take k) (b.drop k) := by
  unfold EndsAfter
  rw [hr, exists_front_iff]

/-- Nothing is put back: whatever comes of it, reading ends somewhere in the bytes. -/
theorem exists_endsAfter {r : Reader α} {form : α → Bytes → Prop}
    {why : Fault → Bytes → Bytes → Prop} (htakes : r.Takes form) (hr : r.Refuses why) (b : Bytes) :
    ∃ outcome k, r.EndsAfter b outcome k := by
  rcases hrb : r b with ⟨outcome, rest⟩
  have hsplit : ∃ f, b = f ++ rest := by
    cases outcome with
    | ok a =>
        obtain ⟨f, -, hb⟩ := (htakes _ _ _).mp hrb
        exact ⟨f, hb⟩
    | error e =>
        obtain ⟨f, -, hb⟩ := (hr _ _ _).mp hrb
        exact ⟨f, hb⟩
  obtain ⟨f, rfl⟩ := hsplit
  exact ⟨outcome, f.length, by simp, by rw [hrb, List.drop_left]⟩

end Reader

open Reader Writer

/-! ### Strokes -/

/-- How a stroke is refused: the fault, the bytes it is found in, and those that are left. -/
inductive Stroke.Refused : Fault → Bytes → Bytes → Prop
  | cutCount {f : Bytes} (hcut : f.length < 4) :
      Refused (.decode (.endOfData (Text.of "point count"))) f []
  | negative {i : Int} {f rest : Bytes} (hneg : i < 0) (hcount : Writer.int i = .ok f) :
      Refused (.decode (.negativeCount (Text.of "point count") i)) f rest
  | empty {f rest : Bytes} (hcount : Writer.int 0 = .ok f) : Refused (.decode .noPoints) f rest
  | cutPoints {n : Nat} {f g : Bytes} (hcount : Writer.int n = .ok f)
      (hcut : g.length < pointSize * n) :
      Refused (.decode (.endOfData (Text.of "stroke points"))) (f ++ g) []
  | nowhere {ps : List Point} {f rest : Bytes} (hcount : Writer.int ps.length = .ok f)
      (hps : ∃ p ∈ ps, p.isFinite = false) :
      Refused (.input .notFinite) (f ++ Writer.points ps) rest

theorem Stroke.ofPoints_eq_error_iff {ps : List Point} {e : Fault} (hps : ps ≠ []) :
    Stroke.ofPoints ps = .error e ↔ e = .input .notFinite ∧ ∃ p ∈ ps, p.isFinite = false := by
  unfold Stroke.ofPoints
  rw [dif_pos hps]
  by_cases hfinite : ps.all Point.isFinite = true
  · rw [dif_pos hfinite]
    rw [List.all_eq_true] at hfinite
    constructor
    · intro h
      simp at h
    · intro h
      obtain ⟨-, p, hp, hnot⟩ := h
      rw [hfinite p hp] at hnot
      simp at hnot
  · rw [dif_neg hfinite]
    constructor
    · intro h
      exact ⟨(Except.error.inj h).symm, by simpa using hfinite⟩
    · intro h
      obtain ⟨rfl, -⟩ := h
      rfl

/-- A block of points is cut off, or there is one among them that is nowhere. -/
theorem Stroke.refuses_block {n : Nat} (hn : n ≠ 0) : Refuses
    (do ofExcept (Stroke.ofPoints (← Reader.points n (Text.of "stroke points"))))
    fun e f rest => Cut (pointSize * n) (Text.of "stroke points") e f rest ∨
      ∃ ps : List Point, ps.length = n ∧ e = .input .notFinite ∧
        (∃ p ∈ ps, p.isFinite = false) ∧ f = Writer.points ps := by
  have hsome : ∀ ps : List Point, ps.length = n → ps ≠ [] := by
    rintro _ hlen rfl
    exact hn hlen.symm
  refine (Refuses.bind (takes_points n _) (refuses_points n _)
    fun ps => refuses_ofExcept (Stroke.ofPoints ps)).congr fun e f rest => or_congr_right ?_
  constructor
  · intro h
    obtain ⟨ps, g, _, ⟨hlen, rfl⟩, ⟨hps, rfl⟩, rfl⟩ := h
    obtain ⟨he, hnot⟩ := (Stroke.ofPoints_eq_error_iff (hsome ps hlen)).mp hps
    exact ⟨ps, hlen, he, hnot, List.append_nil _⟩
  · intro h
    obtain ⟨ps, hlen, he, hnot, rfl⟩ := h
    exact ⟨ps, _, [], ⟨hlen, rfl⟩,
      ⟨(Stroke.ofPoints_eq_error_iff (hsome ps hlen)).mpr ⟨he, hnot⟩, rfl⟩,
      (List.append_nil _).symm⟩

/-- **Which bytes are refused as a stroke, and how.** -/
theorem Stroke.refuses_read : Stroke.read.Refuses Stroke.Refused := by
  have hcounted : ∀ n : Nat, Refuses
      (if n = 0 then (fail (.decode .noPoints) : Reader Stroke) else do
        ofExcept (Stroke.ofPoints (← Reader.points n (Text.of "stroke points"))))
      fun e f rest => (n = 0 ∧ e = .decode .noPoints ∧ f = []) ∨
        (n ≠ 0 ∧ (Cut (pointSize * n) (Text.of "stroke points") e f rest ∨
          ∃ ps : List Point, ps.length = n ∧ e = .input .notFinite ∧
            (∃ p ∈ ps, p.isFinite = false) ∧ f = Writer.points ps)) := by
    intro n
    by_cases hn : n = 0
    · rw [if_pos hn]
      exact (refuses_fail _).congr fun e f rest => by simp [hn]
    · rw [if_neg hn]
      exact (refuses_block hn).congr fun e f rest => by simp [hn]
  refine (Refuses.bind (takes_count _) (refuses_count _) hcounted).congr fun e f rest => ?_
  constructor
  · intro h
    rcases h with (⟨rfl, hcut, rfl⟩ | ⟨i, hneg, rfl, hcount⟩) | ⟨n, g, h, hcount, hrest, rfl⟩
    · exact .cutCount hcut
    · exact .negative hneg hcount
    · rcases hrest with ⟨rfl, rfl, rfl⟩ | ⟨-, ⟨rfl, hcut, rfl⟩ | ⟨ps, rfl, rfl, hnot, rfl⟩⟩
      · rw [List.append_nil]
        exact .empty hcount
      · exact .cutPoints hcount hcut
      · exact .nowhere hcount hnot
  · intro h
    cases h with
    | cutCount hcut => exact Or.inl (Or.inl ⟨rfl, hcut, rfl⟩)
    | negative hneg hcount => exact Or.inl (Or.inr ⟨_, hneg, rfl, hcount⟩)
    | empty hcount =>
        exact Or.inr ⟨0, f, [], hcount, Or.inl ⟨rfl, rfl, rfl⟩, (List.append_nil f).symm⟩
    | @cutPoints n _ _ hcount hcut =>
        have hn : n ≠ 0 := by
          rintro rfl
          simp at hcut
        exact Or.inr ⟨n, _, _, hcount, Or.inr ⟨hn, Or.inl ⟨rfl, hcut, rfl⟩⟩, rfl⟩
    | @nowhere ps _ _ hcount hnot =>
        have hn : ps.length ≠ 0 := by
          obtain ⟨p, hp, -⟩ := hnot
          exact (List.length_pos_of_mem hp).ne'
        exact Or.inr ⟨_, _, _, hcount, Or.inr ⟨hn, Or.inr ⟨ps, rfl, rfl, hnot, rfl⟩⟩, rfl⟩

/-! ### Gestures -/

/-- How a gesture is refused: the fault, the bytes it is found in, and those that are left. -/
inductive Gesture.Refused : Fault → Bytes → Bytes → Prop
  | cutId {f : Bytes} (hcut : f.length < 8) :
      Refused (.decode (.endOfData (Text.of "gesture id"))) f []
  | cutCount {id : Int} {f g : Bytes} (hid : Writer.long id = .ok f) (hcut : g.length < 4) :
      Refused (.decode (.endOfData (Text.of "stroke count"))) (f ++ g) []
  | negative {id i : Int} {f g rest : Bytes} (hid : Writer.long id = .ok f) (hneg : i < 0)
      (hcount : Writer.int i = .ok g) :
      Refused (.decode (.negativeCount (Text.of "stroke count") i)) (f ++ g) rest
  | stroke {id : Int} {n : Nat} {strokes : List Stroke} {e : Fault} {f g h i rest : Bytes}
      (hid : Writer.long id = .ok f) (hcount : Writer.int n = .ok g) (hfewer : strokes.length < n)
      (hstrokes : Joined (fun s : Stroke => Writes s.parts) strokes h) (hnext : Stroke.Refused e i rest) :
      Refused e (f ++ (g ++ (h ++ i))) rest

/-- **Which bytes are refused as a gesture, and how.** -/
theorem Gesture.refuses_read : Gesture.read.Refuses Gesture.Refused := by
  have hstrokes : ∀ (id : Int) (n : Nat), Refuses
      (do
        let strokes ← Stroke.read.times n
        return ({ id, strokes } : Gesture))
      fun e f rest => ∃ strokes g h, strokes.length < n ∧
        Joined (fun s : Stroke => Writes s.parts) strokes g ∧ Stroke.Refused e h rest ∧
        f = g ++ h := by
    intro id n
    exact Refuses.map (takes_times Stroke.takes_read n)
      (refuses_times Stroke.takes_read Stroke.refuses_read n) (Gesture.mk id)
  refine (Refuses.bind (takes_long _) (refuses_long _) fun id =>
    Refuses.bind (takes_count _) (refuses_count _) (hstrokes id)).congr fun e f rest => ?_
  constructor
  · intro h
    rcases h with ⟨rfl, hcut, rfl⟩ | ⟨id, f, _, hid, hlater, rfl⟩
    · exact .cutId hcut
    rcases hlater with (⟨rfl, hcut, rfl⟩ | ⟨i, hneg, rfl, hcount⟩) | ⟨n, g, _, hcount, hlater, rfl⟩
    · exact .cutCount hid hcut
    · exact .negative hid hneg hcount
    · obtain ⟨strokes, h, i, hfewer, hstrokes, hnext, rfl⟩ := hlater
      exact .stroke hid hcount hfewer hstrokes hnext
  · intro h
    cases h with
    | cutId hcut => exact Or.inl ⟨rfl, hcut, rfl⟩
    | cutCount hid hcut => exact Or.inr ⟨_, _, _, hid, Or.inl (Or.inl ⟨rfl, hcut, rfl⟩), rfl⟩
    | negative hid hneg hcount =>
        exact Or.inr ⟨_, _, _, hid, Or.inl (Or.inr ⟨_, hneg, rfl, hcount⟩), rfl⟩
    | stroke hid hcount hfewer hstrokes hnext =>
        exact Or.inr ⟨_, _, _, hid, Or.inr
          ⟨_, _, _, hcount, ⟨_, _, _, hfewer, hstrokes, hnext, rfl⟩, rfl⟩, rfl⟩

end GestureStore
