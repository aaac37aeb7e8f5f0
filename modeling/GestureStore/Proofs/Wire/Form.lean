/-
Readers take exactly what writers write.

The form of a value is the bytes it is written as.  A reader takes a form if it gets
past it wherever it stands and has the value, and gets past nothing else: with any
bytes behind, reading succeeds exactly if the bytes begin with the form of a value.
The law composes along the steps of a reader, so each stored thing needs only its own
fields looked at, and the nesting of counted lists takes care of itself.

Nothing is said here about how a reader fails, only about where it does not.
-/
import GestureStore.Proofs.Bytes
import GestureStore.Proofs.Text.Utf8
import GestureStore.Wire.Reader
import GestureStore.Wire.Writer

namespace GestureStore

/-! ### Chunks -/

/-- Asking chunk by chunk comes to the same as asking once. -/
theorem pull_eq (size : Nat) (stream : Bytes) :
    (pull size stream).bytes = stream.take size ∧ (pull size stream).rest = stream.drop size := by
  fun_induction pull size stream with
  | case1 => exact ⟨rfl, rfl⟩
  | case2 size stream hsize ask chunk hchunk =>
      have hstream : stream = [] := by
        rcases List.take_eq_nil_iff.mp hchunk with hask | hnil
        · simp only [ask, chunkSize] at hask
          omega
        · exact hnil
      simp [hstream]
  | case3 size stream hsize ask chunk hchunk later ih =>
      simp only [later, chunk] at ih ⊢
      rw [ih.1, ih.2, List.length_take]
      rcases Nat.le_total ask stream.length with hle | hle
      · have hsum : ask + (size - ask) = size := by simp only [ask]; omega
        rw [Nat.min_eq_left hle, ← List.take_add, List.drop_drop, hsum]
        exact ⟨rfl, rfl⟩
      · -- The last chunk is all that is left, so nothing comes of asking on.
        have hshort : stream.length ≤ size := by simp only [ask] at hle; omega
        rw [Nat.min_eq_right hle, List.drop_eq_nil_of_le hle, List.take_of_length_le hle,
          List.take_of_length_le hshort, List.drop_eq_nil_of_le hshort]
        simp

/-! ### What a writer writes -/

/-- The forms of several values, one behind the other. -/
def Joined (form : α → Bytes → Prop) : List α → Bytes → Prop
  | [], f => f = []
  | a :: rest, f => ∃ g h, form a g ∧ Joined form rest h ∧ f = g ++ h

theorem joined_append {form : α → Bytes → Prop} {as bs : List α} {f : Bytes} :
    Joined form (as ++ bs) f ↔ ∃ g h, Joined form as g ∧ Joined form bs h ∧ f = g ++ h := by
  induction as generalizing f with
  | nil => simp [Joined]
  | cons a as ih =>
      simp only [List.cons_append, Joined, ih]
      constructor
      · intro h
        obtain ⟨g, _, hg, ⟨h, i, hh, hi, rfl⟩, rfl⟩ := h
        exact ⟨g ++ h, i, ⟨g, h, hg, hh, rfl⟩, hi, (List.append_assoc _ _ _).symm⟩
      · intro h
        obtain ⟨_, i, ⟨g, h, hg, hh, rfl⟩, hi, rfl⟩ := h
        exact ⟨g, h ++ i, hg, ⟨h, i, hh, hi, rfl⟩, List.append_assoc _ _ _⟩

theorem Joined.length_eq {form : α → Bytes → Prop} {size : α → Nat}
    (h : ∀ a f, form a f → f.length = size a) {as : List α} :
    ∀ {f : Bytes}, Joined form as f → f.length = (as.map size).sum := by
  induction as with
  | nil =>
      intro f hf
      rw [show f = [] from hf]
      rfl
  | cons a rest ih =>
      intro f hf
      obtain ⟨g, i, hg, hi, rfl⟩ := hf
      rw [List.length_append, h a g hg, ih hi, List.map_cons, List.sum_cons]

namespace Writer

/-- All values are written, and these are their bytes. -/
def Writes (parts : List (Except Fault Bytes)) (f : Bytes) : Prop := all parts = ⟨f, none⟩

theorem writes_of_fault {parts : List (Except Fault Bytes)} (h : (all parts).fault = none) :
    Writes parts (all parts).bytes := by
  cases hall : all parts with
  | mk f fault =>
      rw [hall] at h
      obtain rfl : fault = none := h
      exact hall

@[simp] theorem writes_nil {f : Bytes} : Writes [] f ↔ f = [] := by
  rw [Writes, all, Written.mk.injEq]
  simp [eq_comm]

theorem writes_cons {part : Except Fault Bytes} {parts : List (Except Fault Bytes)} {f : Bytes} :
    Writes (part :: parts) f ↔ ∃ g h, part = .ok g ∧ Writes parts h ∧ f = g ++ h := by
  cases part with
  | error e => simp [Writes, all]
  | ok g =>
      simp only [Writes, all, Written.mk.injEq]
      refine ⟨?_, ?_⟩
      · intro h
        obtain ⟨rfl, hfault⟩ := h
        exact ⟨g, _, rfl, by rw [← hfault], rfl⟩
      · intro h
        obtain ⟨g, h, hg, hh, rfl⟩ := h
        obtain rfl := Except.ok.inj hg
        simp [hh]

theorem writes_append {ps qs : List (Except Fault Bytes)} {f : Bytes} :
    Writes (ps ++ qs) f ↔ ∃ g h, Writes ps g ∧ Writes qs h ∧ f = g ++ h := by
  induction ps generalizing f with
  | nil => simp
  | cons part ps ih =>
      simp only [List.cons_append, writes_cons, ih]
      refine ⟨?_, ?_⟩
      · intro h
        obtain ⟨g, _, hg, ⟨h, i, hh, hi, rfl⟩, rfl⟩ := h
        exact ⟨g ++ h, i, ⟨g, h, hg, hh, rfl⟩, hi, (List.append_assoc _ _ _).symm⟩
      · intro h
        obtain ⟨_, i, ⟨g, h, hg, hh, rfl⟩, hi, rfl⟩ := h
        exact ⟨g, h ++ i, hg, ⟨h, i, hh, hi, rfl⟩, List.append_assoc _ _ _⟩

/-- Values can all be written if each of them can. -/
theorem exists_writes_iff {parts : List (Except Fault Bytes)} :
    (∃ f, Writes parts f) ↔ ∀ part ∈ parts, ∃ g, part = .ok g := by
  induction parts with
  | nil => simp
  | cons part parts ih =>
      rw [List.forall_mem_cons, ← ih]
      refine ⟨fun h => ?_, fun h => ?_⟩
      · obtain ⟨f, hf⟩ := h
        obtain ⟨g, h, hg, hh, -⟩ := writes_cons.mp hf
        exact ⟨⟨g, hg⟩, ⟨h, hh⟩⟩
      · obtain ⟨⟨g, hg⟩, ⟨h, hh⟩⟩ := h
        exact ⟨g ++ h, writes_cons.mpr ⟨g, h, hg, hh, rfl⟩⟩

/-- Things written part by part have their forms one behind the other. -/
theorem writes_flatMap {parts : α → List (Except Fault Bytes)} {as : List α} {f : Bytes} :
    Writes (as.flatMap parts) f ↔ Joined (fun a => Writes (parts a)) as f := by
  induction as generalizing f with
  | nil => simp [Joined]
  | cons a as ih => simp only [List.flatMap_cons, writes_append, ih, Joined]

end Writer

namespace Reader

/-! ### What a reader takes -/

/-- The reader gets past a form of a value, whatever stands behind it, and past nothing else. -/
def Takes (r : Reader α) (form : α → Bytes → Prop) : Prop :=
  ∀ b a rest, r b = (.ok a, rest) ↔ ∃ f, form a f ∧ b = f ++ rest

theorem Takes.congr {r : Reader α} {form form' : α → Bytes → Prop} (hr : r.Takes form)
    (h : ∀ a f, form a f ↔ form' a f) : r.Takes form' := by
  intro b a rest
  rw [hr b a rest]
  simp only [h]

theorem Takes.read {r : Reader α} {form : α → Bytes → Prop} (hr : r.Takes form) {a : α}
    {f : Bytes} (h : form a f) (rest : Bytes) : r (f ++ rest) = (.ok a, rest) :=
  (hr _ _ _).mpr ⟨f, h, rfl⟩

/-- **Bytes that begin with a form tell of what it is a form, and where it ends.** -/
theorem Takes.end_unique {r : Reader α} {form : α → Bytes → Prop} (hr : r.Takes form)
    {a a' : α} {f f' rest rest' : Bytes} (h : form a f) (h' : form a' f')
    (heq : f ++ rest = f' ++ rest') : a = a' ∧ rest = rest' := by
  have hread := hr.read h rest
  rw [heq, hr.read h' rest'] at hread
  obtain ⟨ha, hrest⟩ := Prod.mk.inj hread
  exact ⟨(Except.ok.inj ha).symm, hrest.symm⟩

theorem takes_pure (a : α) : Takes (Pure.pure a : Reader α) fun a' f => a' = a ∧ f = [] := by
  intro b a' rest
  refine ⟨?_, ?_⟩
  · intro h
    obtain ⟨ha, hb⟩ := Prod.mk.inj h
    exact ⟨[], ⟨(Except.ok.inj ha).symm, rfl⟩, hb⟩
  · intro h
    obtain ⟨f, ⟨rfl, rfl⟩, rfl⟩ := h
    rfl

theorem takes_fail (e : Fault) : Takes (fail e : Reader α) fun _ _ => False := by
  intro b a rest
  simp [fail]

theorem takes_ofExcept (outcome : Except Fault α) :
    (ofExcept outcome).Takes fun a f => outcome = .ok a ∧ f = [] := by
  cases outcome with
  | error e =>
      refine (takes_fail e).congr fun a f => ?_
      simp
  | ok a =>
      refine (takes_pure a).congr fun a' f => ?_
      simp [eq_comm]

theorem bind_ok {r : Reader α} {k : α → Reader β} {b rest : Bytes} {a : α}
    (h : r b = (.ok a, rest)) : (r >>= k) b = k a rest := by
  show bind r k b = _
  rw [bind, h]

theorem bind_error {r : Reader α} {k : α → Reader β} {b rest : Bytes} {e : Fault}
    (h : r b = (.error e, rest)) : (r >>= k) b = (.error e, rest) := by
  show bind r k b = _
  rw [bind, h]

/-- **One reader after the other takes one form behind the other.** -/
theorem Takes.bind {r : Reader α} {k : α → Reader β} {form : α → Bytes → Prop}
    {form' : α → β → Bytes → Prop} (hr : r.Takes form) (hk : ∀ a, (k a).Takes (form' a)) :
    (r >>= k).Takes fun c f => ∃ a g h, form a g ∧ form' a c h ∧ f = g ++ h := by
  intro b c rest
  refine ⟨?_, ?_⟩
  · intro h
    rcases hrb : r b with ⟨outcome, middle⟩
    cases outcome with
    | error e =>
        rw [bind_error hrb] at h
        simp at h
    | ok a =>
        rw [bind_ok hrb] at h
        obtain ⟨g, hg, rfl⟩ := (hr _ _ _).mp hrb
        obtain ⟨f, hf, rfl⟩ := (hk a _ _ _).mp h
        exact ⟨g ++ f, ⟨a, g, f, hg, hf, rfl⟩, (List.append_assoc _ _ _).symm⟩
  · intro h
    obtain ⟨f, ⟨a, g, h, hg, hh, rfl⟩, rfl⟩ := h
    rw [List.append_assoc, bind_ok (hr.read hg _)]
    exact (hk a).read hh rest

/-- A value computed from what was taken. -/
theorem Takes.map {r : Reader α} {form : α → Bytes → Prop} (hr : r.Takes form) (g : α → β) :
    (r >>= fun a => Pure.pure (g a)).Takes fun c f => ∃ a, form a f ∧ c = g a := by
  refine (hr.bind fun a => takes_pure (g a)).congr ?_
  intro c f
  refine ⟨?_, ?_⟩
  · intro h
    obtain ⟨a, f, _, hf, ⟨rfl, rfl⟩, rfl⟩ := h
    exact ⟨a, by simpa using hf, rfl⟩
  · intro h
    obtain ⟨a, hf, rfl⟩ := h
    exact ⟨a, f, [], hf, ⟨rfl, rfl⟩, by simp⟩

/-! ### Several of a kind -/

/-- **Reading several values takes as many forms.** -/
theorem run_eq_iff {r : Reader α} {form : α → Bytes → Prop} (hr : r.Takes form) :
    ∀ (n : Nat) (b : Bytes) (items : List α) (rest : Bytes),
      run r n b = ⟨items, none, rest⟩ ↔
        items.length = n ∧ ∃ f, Joined form items f ∧ b = f ++ rest := by
  intro n
  induction n with
  | zero =>
      intro b items rest
      refine ⟨?_, ?_⟩
      · intro h
        obtain ⟨hitems, -, hrest⟩ := Run.mk.inj h
        subst hitems
        exact ⟨rfl, [], rfl, hrest⟩
      · intro h
        obtain ⟨hlen, f, hf, rfl⟩ := h
        obtain rfl := List.length_eq_zero_iff.mp hlen
        rw [show f = [] from hf]
        rfl
  | succ n ih =>
      intro b items rest
      rw [run]
      refine ⟨?_, ?_⟩
      · intro h
        split at h
        · simp at h
        · rename_i a middle hra
          obtain ⟨hitems, hfault, hrest⟩ := Run.mk.inj h
          obtain ⟨g, hg, rfl⟩ := (hr _ _ _).mp hra
          obtain ⟨hlen, f, hf, hmiddle⟩ := (ih middle _ rest).mp
            (show run r n middle = ⟨(run r n middle).items, none, rest⟩ by rw [← hfault, ← hrest])
          subst hitems
          refine ⟨by rw [List.length_cons, hlen], g ++ f, ⟨g, f, hg, hf, rfl⟩, ?_⟩
          rw [hmiddle, List.append_assoc]
      · intro h
        obtain ⟨hlen, f, hf, rfl⟩ := h
        cases items with
        | nil => simp at hlen
        | cons a items =>
            obtain ⟨g, h, hg, hh, rfl⟩ := hf
            have hlater := (ih (h ++ rest) items rest).mpr
              ⟨by simpa using hlen, h, hh, rfl⟩
            rw [List.append_assoc, hr.read hg]
            simp only [hlater]

theorem takes_times {r : Reader α} {form : α → Bytes → Prop} (hr : r.Takes form) (n : Nat) :
    (r.times n).Takes fun items f => items.length = n ∧ Joined form items f := by
  intro b items rest
  have hrun : (r.times n) b = (.ok items, rest) ↔ run r n b = ⟨items, none, rest⟩ := by
    rw [times]
    cases hall : run r n b with
    | mk own fault left => cases fault <;> simp
  rw [hrun, run_eq_iff hr]
  refine ⟨?_, ?_⟩
  · intro h
    obtain ⟨hlen, f, hf, rfl⟩ := h
    exact ⟨f, ⟨hlen, hf⟩, rfl⟩
  · intro h
    obtain ⟨f, ⟨hlen, hf⟩, rfl⟩ := h
    exact ⟨hlen, f, hf, rfl⟩

end Reader
end GestureStore
