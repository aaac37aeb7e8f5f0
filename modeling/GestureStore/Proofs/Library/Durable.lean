/-
A clean library has nothing to lose.

Saving is skipped where nothing was changed, and only a flag says whether something
was.  `Agrees` is what the flag stands for: a clean library that has never met its
file holds nothing, and one that has met it holds what the file says, in the sense of
`StoreFile.parse`.  A library that is not clean promises nothing, which is why failed
attempts to save or load it need no care here.

Nobody else may change the file in between; what is changed elsewhere on the disk does
not matter.
-/
import GestureStore.Proofs.Library.Runs
import GestureStore.Proofs.Storage.Replace

namespace GestureStore

variable [Scalar α] [Stored β α]

/-- A library whose flag says that there is nothing to save has nothing to save. -/
structure Agrees (location : Location) (met : Prop) (st : Library.State β) (d : Disk) : Prop where
  /-- The library is where it always was. -/
  place : st.location = location
  /-- One that is clean and never met its file holds nothing. -/
  untouched : ¬ met → st.dirty = false → st.entries = []
  /-- One that is clean and met its file holds what the file says. -/
  stored : met → st.dirty = false →
    ∃ bytes, d.contents? location = .ok (some bytes) ∧ StoreFile.parse bytes = .ok st.entries

namespace Agrees

variable {location : Location} {met : Prop} {st : Library.State β} {d : Disk}

omit [Scalar α] [Stored β α] in
theorem of_dirty (hplace : st.location = location) (hdirty : st.dirty = true) :
    Agrees location met st d := by
  refine ⟨hplace, fun _ hclean => ?_, fun _ hclean => ?_⟩
  · rw [hdirty] at hclean
    simp at hclean
  · rw [hdirty] at hclean
    simp at hclean

omit [Scalar α] [Stored β α] in
/-- Whatever did not happen makes no difference. -/
theorem or (h : Agrees location met st d) {meets : Prop} (hnot : ¬ meets) :
    Agrees location (met ∨ meets) st d := by
  rw [or_iff_left hnot]
  exact h

omit [Scalar α] [Stored β α] in
/-- Meeting the file is holding what it says. -/
theorem of_met (hplace : st.location = location) (hmet : met) {bytes : Bytes}
    (hfound : d.contents? location = .ok (some bytes))
    (hparse : StoreFile.parse bytes = .ok st.entries) : Agrees location met st d :=
  ⟨hplace, fun hnot => absurd hmet hnot, fun _ _ => ⟨bytes, hfound, hparse⟩⟩

end Agrees

/-- **One operation keeps what the flag stands for.** -/
theorem Does.agrees {w : Workspace β} {op : Operation} {outcome : Except Fault (Answer α)}
    {st : Library.State β} {d : Disk} (hdoes : Does w op outcome st d)
    (htidy : w.library.entries.Tidy) {location : Location} {met : Prop}
    (h : Agrees location met w.library.state w.disk) :
    Agrees location (met ∨ (outcome = .ok (.flag true) ∧
      (op = .load ∨ (op = .save ∧ w.library.dirty = true)))) st d := by
  have hplace : w.library.location = location := h.place
  cases hdoes with
  | refused hop => exact h.or (by simp)
  | ignored blank => exact h.or (by simp)
  | added named writable new ext => exact .of_dirty hplace rfl
  | notRemoved => exact h.or (by simp)
  | removed found stored => exact .of_dirty hplace rfl
  | notDropped => exact h.or (by simp)
  | dropped found => exact .of_dirty hplace rfl
  | recognized ext ranked => exact h.or (by simp)
  | rebuilt ext =>
      apply Agrees.or
      · exact ⟨hplace, h.untouched, h.stored⟩
      · simp
  | sequenceSet =>
      apply Agrees.or
      · exact ⟨hplace, h.untouched, h.stored⟩
      · simp
  | orientationSet =>
      apply Agrees.or
      · exact ⟨hplace, h.untouched, h.stored⟩
      · simp
  | clean hclean => exact h.or (by simp [hclean])
  | saved hdirty replaced =>
      obtain ⟨hwritten, hfound⟩ := Disk.replace_eq_ok replaced
      rw [hplace] at hfound
      refine .of_met hplace (Or.inr ⟨rfl, Or.inr ⟨rfl, hdirty⟩⟩) hfound ?_
      have hparse := StoreFile.parse_write htidy hwritten []
      rw [List.append_nil] at hparse
      exact hparse
  | notSaved hdirty refused failed => exact .of_dirty hplace hdirty
  | notLoaded untaken => exact h.or (by simp)
  | loaded found loads =>
      rw [hplace] at found
      exact .of_met hplace (Or.inr ⟨rfl, Or.inl rfl⟩) found loads.parse_eq

theorem Workspace.play_agrees_of {location : Location} (events : List Event) :
    ∀ (w : Workspace β) (policies : Int → Policy) (met : Prop),
      InStep policies w.library.entries w.library.learner →
      Agrees location met w.library.state w.disk → w.Undisturbed events →
      Agrees location (met ∨ w.Met events) (w.play events).library.state (w.play events).disk := by
  induction events with
  | nil => intro w policies met _ h _; exact h.or id
  | cons e rest ih =>
      intro w policies met hstep h hundisturbed
      cases e with
      | operate op =>
          have hdoes := w.perform_does op
          have hlater := ih (w.after (.operate op)) _ (met ∨ w.Meets op) (hdoes.inStep hstep)
            (hdoes.agrees hstep.tidy h) hundisturbed
          rw [or_assoc] at hlater
          exact hlater
      | outside d =>
          obtain ⟨hsame, hundisturbed⟩ := hundisturbed
          refine ih (w.after (.outside d)) policies met hstep ⟨h.place, h.untouched, ?_⟩ hundisturbed
          intro hmet hclean
          obtain ⟨bytes, hfound, hparse⟩ := h.stored hmet hclean
          refine ⟨bytes, ?_, hparse⟩
          have hplace : w.library.location = location := h.place
          rw [hplace] at hsame
          rw [← hfound]
          exact hsame

/--
**A clean library holds what its file says, or nothing before they have met.**

After every run in which nobody else changes the file: where the library is not marked
as changed, its file says exactly its entries, once something was loaded or a change was
saved; until then it has none.
-/
theorem clean_library_is_stored (location : Location) (policy : Policy)
    (profiler : Option (Profiler Float)) (disk : Disk) (events : List Event)
    (hundisturbed : (Workspace.start location policy profiler disk : Workspace β).Undisturbed events) :
    let start : Workspace β := Workspace.start location policy profiler disk
    let w := start.play events
    w.library.dirty = false →
      (¬ start.Met events → w.library.entries = []) ∧
        (start.Met events → ∃ bytes, w.disk.contents? location = .ok (some bytes) ∧
          StoreFile.parse bytes = .ok w.library.entries) := by
  intro start w hclean
  have hstart : Agrees location False start.library.state start.disk :=
    ⟨rfl, fun _ _ => rfl, fun hfalse => absurd hfalse id⟩
  have h : Agrees location (False ∨ start.Met events) w.library.state w.disk :=
    Workspace.play_agrees_of events start (fun _ => policy) False (inStep_empty _) hstart hundisturbed
  rw [false_or] at h
  exact ⟨fun hnot => h.untouched hnot hclean, fun hmet => h.stored hmet hclean⟩

/-- What was added under two names in turns and saved is in the file, name by name. -/
theorem saved_entries_are_stored :
    Workspace.gathered.library.dirty = false ∧
      ∃ bytes, Workspace.gathered.disk.contents? ⟨1, [Text.of "s"]⟩ = .ok (some bytes) ∧
        StoreFile.parse bytes = .ok .gathered := by
  have hclean : Workspace.gathered.library.dirty = false := rfl
  have hmet : (Workspace.start ⟨1, [Text.of "s"]⟩ ⟨.invariant, none⟩ none .blank
      : Workspace Single).Met Event.gathering :=
    Or.inr (Or.inr (Or.inr (Or.inl ⟨rfl, Or.inr ⟨rfl, rfl⟩⟩)))
  have h := clean_library_is_stored (β := Single) ⟨1, [Text.of "s"]⟩ ⟨.invariant, none⟩ none .blank
    Event.gathering trivial hclean
  exact ⟨hclean, h.2 hmet⟩

end GestureStore
