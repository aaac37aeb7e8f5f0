/-
Operations that fail leave library and files as they were.

An operation fails when it is refused, and also when it answers that nothing was saved
or loaded.  Rebuilding, loading and saving may fail at any of the gestures they go
through, but by then they have changed nothing that is seen afterwards: what they have
done so far stands beside the library, or in a temporary file.

This holds of any library and any disk, however they came about, and whatever the disk
refuses.  Directories on the way to a file that could not be saved are left over, and so
is the temporary file where it cannot be removed (`Disk.Abandoned`).
-/
import GestureStore.Proofs.Library.Loading
import GestureStore.Proofs.Library.TooDeep
import GestureStore.Proofs.Storage.Replace

namespace GestureStore

/-- An operation failed: there is no answer, or it says that nothing was saved or loaded. -/
def Failed (outcome : Except Fault (Answer α)) : Prop :=
  (∃ e, outcome = .error e) ∨ outcome = .ok (.flag false)

/-- **Saving that failed has tried to replace the file**, and tells of what is left of that. -/
theorem Library.abandoned_of_failed {l : Library β} {d : Disk}
    (hfailed : Failed ((l.save d).1.map .flag : Except Fault (Answer α))) :
    ∃ left, d.Abandoned l.location left (l.save d).2.2.2 ∧
      ∀ place ∈ left, .notRemoved place .system ∈ (l.save d).2.1 := by
  unfold save at hfailed ⊢
  by_cases hdirty : (!l.dirty) = true
  · rw [if_pos hdirty] at hfailed
    simp [Failed, Except.map] at hfailed
  · rw [if_neg hdirty] at hfailed ⊢
    dsimp only at hfailed ⊢
    split at hfailed
    · simp [Failed, Except.map] at hfailed
    · rename_i left d' hreplace
      obtain ⟨-, hleft⟩ := Disk.replace_eq_tooDeep (StoreFile.fault_ne_tooDeep _) hreplace
      exact ⟨left, Disk.replace_eq_error hreplace, by simp [hleft]⟩
    · rename_i left d' _ hreplace
      refine ⟨left, Disk.replace_eq_error hreplace, fun place hplace => ?_⟩
      simp [Option.mem_def.mp hplace]

variable [Scalar α] [Stored β α]

/-- An operation that failed left the library as it was, and the disk unless it was saving. -/
theorem Does.of_failed {w : Workspace β} {op : Operation} {outcome : Except Fault (Answer α)}
    {st : Library.State β} {d : Disk} (hdoes : Does w op outcome st d) (hfailed : Failed outcome) :
    st = w.library.state ∧ (op ≠ .save → d = w.disk) ∧
      (op = .save → w.library.dirty = true) := by
  rcases hfailed with ⟨e, rfl⟩ | rfl
  · cases hdoes with
    | refused hop => exact ⟨rfl, fun _ => rfl, fun hsave => absurd hsave hop⟩
    | notSaved hdirty _ _ => exact ⟨rfl, fun hnot => absurd rfl hnot, fun _ => hdirty⟩
  · cases hdoes with
    | notSaved hdirty _ _ => exact ⟨rfl, fun hnot => absurd rfl hnot, fun _ => hdirty⟩
    | notLoaded _ => exact ⟨rfl, fun _ => rfl, fun hsave => by simp at hsave⟩

/--
**An operation that fails leaves library and files as they were.**

Entries, instances in their order, policy, location and the mark of a change are the
same.  The disk is the same, too, unless it was saving that failed.  Then the library is
still marked as changed, and everything on the disk is where it was.  A file that is new
is the temporary one; it is left only where removing is refused, and a notice tells of it.
Whatever else is new is a directory on the way to the store.

The store that was found still is.  Where none was found none is found now, but for a
path that goes up again on its way: on a disk where all that stands somewhere stands in a
directory, and for a location with names that can stand in a path.
-/
theorem failure_keeps_library_and_files (w : Workspace β) (op : Operation)
    (hfailed : Failed (w.perform op).1.outcome) :
    let w' := (w.perform op).2
    let location := w.library.location
    w'.library.entries = w.library.entries ∧
      w'.library.learner.instances = w.library.learner.instances ∧
      w'.library.policy = w.library.policy ∧
      w'.library.location = location ∧
      w'.library.dirty = w.library.dirty ∧
      (op ≠ .save → w'.disk = w.disk) ∧
      (op = .save → w'.library.dirty = true ∧
        (∀ bytes, w.disk.contents? location = .ok (some bytes) →
          w'.disk.contents? location = .ok (some bytes)) ∧
        (w.disk.Rooted → location.Sound → Location.dots ∉ location.names →
          ∀ bytes, w'.disk.contents? location = .ok (some bytes) ↔
            w.disk.contents? location = .ok (some bytes)) ∧
        (∀ place node, w.disk.node? place = some node → w'.disk.node? place = some node) ∧
        ∃ left : Option Place,
          (∀ place ∈ left, (w.disk.refusals place.parent).remove = true ∧
            w.disk.Beside location place ∧ w.disk.node? place = none ∧
            .notRemoved place .system ∈ (w.perform op).1.notices) ∧
          (∀ place ∉ left, ∀ bytes mode, w'.disk.node? place = some (.file bytes mode) ↔
            w.disk.node? place = some (.file bytes mode)) ∧
          ∀ place ∉ left, ∀ node,
            w'.disk.node? place = some node → w.disk.node? place = none →
              node = newDirectory ∧ ∃ way, way <+: location.parent.names ∧
                place = (w.disk.origin location.parent.text).along way) := by
  intro w' location
  obtain ⟨hstate, hdisk, hsave⟩ := (w.perform_does op).of_failed hfailed
  have hlearner : w'.library.learner = w.library.learner := congrArg Library.State.learner hstate
  have hdirty : w'.library.dirty = w.library.dirty := congrArg Library.State.dirty hstate
  refine ⟨congrArg Library.State.entries hstate, by rw [hlearner],
    congrArg Library.State.policy hstate, congrArg Library.State.location hstate, hdirty, hdisk,
    fun hop => ?_⟩
  subst hop
  obtain ⟨left, habandoned, htold⟩ := Library.abandoned_of_failed (l := w.library) hfailed
  refine ⟨hdirty.trans (hsave rfl), fun _ => habandoned.contents?,
    fun hrooted hsound hdots _ => habandoned.target_iff hrooted hsound hdots,
    fun _ _ => habandoned.node?_of, left, fun place hplace => ?_,
    fun _ hplace _ _ => habandoned.node?_file_iff hplace,
    fun _ hplace _ => habandoned.node?_new hplace⟩
  obtain ⟨hrefused, hbeside, hnone, -⟩ := habandoned.of_mem hplace
  exact ⟨hrefused, hbeside, hnone, htold place hplace⟩

theorem Disk.rooted_holding (name : Text) (bytes : Bytes) : (Disk.holding name bytes).Rooted := by
  intro place n hn hroot
  rw [node?, if_neg hroot] at hn
  have hplace : place = Place.root.child name := by
    by_contra hne
    simp [holding, Ne.symm hne] at hn
  refine ⟨0o755, ?_⟩
  rw [hplace, Place.parent_child]
  rfl

/-- The bytes of a store. -/
def StoreFile.kept : Bytes := (write interleaved).bytes

/-- A library to which a gesture was added whose identifier has too many bits, beside a store. -/
def Workspace.oversized (location : Location) : Workspace Single :=
  (start location ⟨.invariant, none⟩ none (.holding (Text.of "s") StoreFile.kept)
    : Workspace Single).play [.operate (.add (.text (Text.of "a")) (.dot (2 ^ 63)))]

/-- A store in a directory that is not there. -/
def Location.elsewhere : Location := ⟨1, [Text.of "x", Text.of "s"]⟩

/-- The gesture cannot be saved; the store is as it was, no file comes of trying, and where there
was no store there still is none. -/
theorem unsaved_dot_keeps_the_store :
    let w := Workspace.oversized ⟨1, [Text.of "s"]⟩
    let w' := (w.perform .save).2
    Failed (w.perform .save).1.outcome ∧ w'.library.dirty = true ∧
      w'.disk.contents? ⟨1, [Text.of "s"]⟩ = .ok (some StoreFile.kept) ∧
      (∀ place bytes mode, w'.disk.node? place = some (.file bytes mode) ↔
        w.disk.node? place = some (.file bytes mode)) ∧
      ∀ bytes, ((Workspace.oversized .elsewhere).perform .save).2.disk.contents? .elsewhere
        ≠ .ok (some bytes) := by
  have hfailed : Failed ((Workspace.oversized ⟨1, [Text.of "s"]⟩).perform .save).1.outcome :=
    Or.inr rfl
  obtain ⟨-, -, -, -, -, -, hsave⟩ := failure_keeps_library_and_files _ .save hfailed
  obtain ⟨hdirty, hfound, -, -, left, hleft, hfiles, -⟩ := hsave rfl
  have hfailed' : Failed ((Workspace.oversized .elsewhere).perform .save).1.outcome := Or.inr rfl
  obtain ⟨-, -, -, -, -, -, hsave'⟩ := failure_keeps_library_and_files _ .save hfailed'
  obtain ⟨-, -, hmissing, -⟩ := hsave' rfl
  refine ⟨hfailed, hdirty, hfound _ (Disk.contents?_holding _), fun place => ?_, fun bytes hb => ?_⟩
  · -- Nothing is refused on this disk, so no temporary file is left.
    have hplace : place ∉ left := fun hplace => Bool.false_ne_true (hleft place hplace).1
    exact hfiles place hplace
  · have hsound : Location.elsewhere.Sound := by
      unfold Location.Sound
      decide
    have hbefore := (hmissing (Disk.rooted_holding _ _) hsound (by decide) bytes).mp hb
    have hnone : (Workspace.oversized .elsewhere).disk.contents? .elsewhere = .ok none := rfl
    exact absurd (hnone.symm.trans hbefore) (by simp)

/--
Where moving and removing files are refused, a temporary file is left of saving.

And where the way to a store goes up from a directory that is missing, no store is found
before saving fails, and afterwards one is that was there all along.
-/
theorem failed_saving_leaves_a_trace :
    (let place := Place.root.child (Text.of ".s.00000000.tmp")
      let refusing := { Disk.blank with refusals := fun _ => { rename := true, remove := true } }
      let w : Workspace Single :=
        (Workspace.start ⟨1, [Text.of "s"]⟩ ⟨.invariant, none⟩ none refusing).play
          [.operate (.add (.text (Text.of "a")) (.dot 7))]
      (w.perform .save).1.outcome = .ok (.flag false) ∧ w.disk.node? place = none ∧
        (w.perform .save).2.disk.node? place
          = some (.file (StoreFile.write w.library.entries).bytes newFileMode)) ∧
    (let location : Location := ⟨1, [Text.of "x", Location.dots, Text.of "s"]⟩
      let w := Workspace.oversized location
      (w.perform .save).1.outcome = .ok (.flag false) ∧
        w.disk.contents? location = .ok none ∧
        (w.perform .save).2.disk.contents? location = .ok (some StoreFile.kept)) := by
  exact ⟨⟨rfl, rfl, rfl⟩, rfl, rfl, rfl⟩

end GestureStore
