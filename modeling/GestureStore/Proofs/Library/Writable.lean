/-
What keeps a library from being written.

What fits the fields of a file can be written if its names can, and nothing else
(`StoreFile.fault_eq_none_iff`).  Of a library that came about by operations the names
can: they were asked for when they came in.  Identifiers were not.  As long as lists
are short enough to be counted, they alone decide whether a library can be written,
and a library that holds one with too many bits cannot be saved any more.
-/
import GestureStore.Proofs.Library.Runs
import GestureStore.Proofs.Storage.Replace
import GestureStore.Proofs.Wire.Layout

namespace GestureStore

/-- No list in a library is too long to be counted. -/
structure Entries.Countable (es : Entries) : Prop where
  /-- There are not too many entries. -/
  entries : es.length < 2 ^ 31
  /-- No entry has too many gestures. -/
  gestures : ∀ e ∈ es, e.2.length < 2 ^ 31
  /-- No gesture has too many strokes. -/
  strokes : ∀ g ∈ es.gestures, g.strokes.length < 2 ^ 31
  /-- No stroke has too many points. -/
  points : ∀ g ∈ es.gestures, ∀ s ∈ g.strokes, s.points.length < 2 ^ 31

/-- Identifiers have 64 bits. -/
def Entries.Identified (es : Entries) : Prop :=
  ∀ g ∈ es.gestures, -2 ^ 63 ≤ g.id ∧ g.id < 2 ^ 63

theorem Entries.Countable.fits_iff {es : Entries} (h : es.Countable) : es.Fits ↔ es.Identified :=
  ⟨fun hfits => hfits.ids, fun hids => ⟨h.entries, h.gestures, hids, h.strokes, h.points⟩⟩

variable [Scalar α] [Stored β α]

theorem InStep.exists_utf {since : Int → Policy} {es : Entries} {l : Learner β}
    (h : InStep since es l) : ∀ e ∈ es, ∃ f, Writer.utf e.1 = .ok f := by
  intro e he
  obtain ⟨g, -, hp⟩ := h.tidy.exists_pair he
  exact h.writable _ hp

/-- What was changed and is saved could be written. -/
theorem Does.fault_of_saved {w : Workspace β} {st : Library.State β} {d : Disk}
    (h : Does w .save (.ok (.flag true)) st d) (hdirty : w.library.dirty = true) :
    (StoreFile.write w.library.entries).fault = none := by
  cases h with
  | clean hclean =>
      rw [hdirty] at hclean
      simp at hclean
  | saved _ replaced => exact (Disk.replace_eq_ok replaced).1
  | notSaved _ _ failed => simp at failed

/-- What is not saved could not replace the file. -/
theorem Does.replace_of_notSaved {w : Workspace β} {st : Library.State β} {d : Disk}
    (h : Does w .save (.ok (.flag false)) st d) :
    ∃ e, (w.disk.replace w.library.location (StoreFile.write w.library.entries).bytes
      (StoreFile.write w.library.entries).fault).1 = .error e := by
  cases h with
  | notSaved _ refused _ => exact ⟨_, congrArg Prod.fst refused⟩

/--
**Whether a library can be written is a matter of its identifiers.**

After any run, as long as lists are short enough to be counted, the entries can be
written exactly if their identifiers have 64 bits.  If they have, saving fails only
where the disk refuses the bytes.  If one has not, a library that was changed is not
saved.
-/
theorem library_is_written_by_its_identifiers (location : Location) (policy : Policy)
    (profiler : Option (Profiler Float)) (disk : Disk) (events : List Event) :
    let w : Workspace β := (Workspace.start location policy profiler disk).play events
    let es := w.library.entries
    es.Countable →
      ((StoreFile.write es).fault = none ↔ es.Identified) ∧
      (es.Identified → (w.perform .save).1.outcome = .ok (.flag false) →
        ∃ e, (w.disk.replace w.library.location (StoreFile.write es).bytes none).1 = .error e) ∧
      (¬ es.Identified → w.library.dirty = true →
        (w.perform .save).1.outcome ≠ .ok (.flag true)) := by
  intro w es hcountable
  have hstep := Workspace.play_inStep (β := β) location policy profiler disk events
  have hiff : (StoreFile.write es).fault = none ↔ es.Identified := by
    rw [StoreFile.fault_eq_none_iff hstep.exists_utf, hcountable.fits_iff]
  have hdoes := w.perform_does .save
  refine ⟨hiff, fun hids houtcome => ?_, fun hnot hdirty houtcome => ?_⟩
  · rw [houtcome] at hdoes
    obtain ⟨e, he⟩ := hdoes.replace_of_notSaved
    rw [hiff.mpr hids] at he
    exact ⟨e, he⟩
  · rw [houtcome] at hdoes
    exact hnot (hiff.mp (hdoes.fault_of_saved hdirty))

/-- A dot with an identifier of 64 bits is written. -/
theorem dot_is_written :
    let start : Workspace Single := .start ⟨1, [Text.of "s"]⟩ ⟨.invariant, none⟩ none .blank
    let w := start.play [.operate (.add (.text (Text.of "a")) (.dot (2 ^ 63 - 1)))]
    w.library.entries.Countable ∧ (StoreFile.write w.library.entries).fault = none := by
  have hdot : Entries.Countable [(Text.of "a", [.dot (2 ^ 63 - 1)])] :=
    ⟨by decide, by decide, by decide, by decide⟩
  have hids : Entries.Identified [(Text.of "a", [.dot (2 ^ 63 - 1)])] := by
    unfold Entries.Identified
    decide
  have h := library_is_written_by_its_identifiers (β := Single) ⟨1, [Text.of "s"]⟩
    ⟨.invariant, none⟩ none .blank [.operate (.add (.text (Text.of "a")) (.dot (2 ^ 63 - 1)))] hdot
  exact ⟨hdot, h.1.mpr hids⟩

/-- A dot with an identifier of more bits is added, and then the library cannot be saved. -/
theorem oversized_dot_is_not_saved :
    let start : Workspace Single := .start ⟨1, [Text.of "s"]⟩ ⟨.invariant, none⟩ none .blank
    let add := Operation.add (.text (Text.of "a")) (.dot (2 ^ 63))
    let w := start.play [.operate add]
    (start.perform add).1.outcome = .ok .done ∧ w.library.entries.Countable ∧
      (StoreFile.write w.library.entries).fault = some .unpackable ∧
      (w.perform .save).1.outcome = .ok (.flag false) := by
  have hdot : Entries.Countable [(Text.of "a", [.dot (2 ^ 63)])] :=
    ⟨by decide, by decide, by decide, by decide⟩
  have hfault : (StoreFile.write [(Text.of "a", [.dot (2 ^ 63)])]).fault = some .unpackable := by
    decide
  exact ⟨rfl, hdot, hfault, rfl⟩

end GestureStore
