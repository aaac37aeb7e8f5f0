/-
When saving a library is a fault.

Whatever keeps a file from being written is told in a notice, and the library answers that
it was not saved.  One cause is not dealt with: more directories missing on the way to the
file than are made at once.  Neither what is written nor what else stands on the disk has a
part in it (`Library.save_eq_error`).
-/
import GestureStore.Library.Storing

namespace GestureStore

theorem bind_ne_tooDeep {outcome : Except Fault α} {next : α → Except Fault β}
    (h : outcome ≠ .error .tooDeep) (hnext : ∀ a, next a ≠ .error .tooDeep) :
    outcome >>= next ≠ .error .tooDeep := by
  cases outcome with
  | ok a => exact hnext a
  | error e =>
      intro hbind
      exact h (congrArg Except.error (Except.error.inj hbind))

/-! ### Writing -/

namespace Writer

theorem error_mem_of_fault {parts : List (Except Fault Bytes)} {e : Fault}
    (h : (all parts).fault = some e) : .error e ∈ parts := by
  induction parts with
  | nil => cases h
  | cons part rest ih =>
      cases part with
      | error e' =>
          cases h
          exact List.mem_cons_self
      | ok bytes => exact List.mem_cons_of_mem _ (ih h)

theorem integer_ne_tooDeep (k : Nat) (i : Int) : integer k i ≠ .error .tooDeep := by
  unfold integer
  split <;> simp

theorem utf_ne_tooDeep (t : Text) : utf t ≠ .error .tooDeep := by
  unfold utf
  split
  · simp
  · split <;> simp

end Writer

theorem Stroke.parts_ne_tooDeep (s : Stroke) : ∀ part ∈ s.parts, part ≠ .error .tooDeep := by
  intro part hpart
  rcases List.mem_cons.mp hpart with hnumber | hpart
  · rw [hnumber]
    exact Writer.integer_ne_tooDeep _ _
  · rw [List.mem_singleton.mp hpart]
    simp

theorem Gesture.parts_ne_tooDeep (g : Gesture) : ∀ part ∈ g.parts, part ≠ .error .tooDeep := by
  intro part hpart
  rcases List.mem_cons.mp hpart with hnumber | hpart
  · rw [hnumber]
    exact Writer.integer_ne_tooDeep _ _
  rcases List.mem_cons.mp hpart with hnumber | hpart
  · rw [hnumber]
    exact Writer.integer_ne_tooDeep _ _
  · obtain ⟨s, -, hs⟩ := List.mem_flatMap.mp hpart
    exact s.parts_ne_tooDeep part hs

namespace StoreFile

theorem entryParts_ne_tooDeep (e : Text × List Gesture) :
    ∀ part ∈ entryParts e, part ≠ .error .tooDeep := by
  intro part hpart
  rcases List.mem_cons.mp hpart with hname | hpart
  · rw [hname]
    exact Writer.utf_ne_tooDeep _
  rcases List.mem_cons.mp hpart with hnumber | hpart
  · rw [hnumber]
    exact Writer.integer_ne_tooDeep _ _
  · obtain ⟨g, -, hg⟩ := List.mem_flatMap.mp hpart
    exact g.parts_ne_tooDeep part hg

theorem fault_ne_tooDeep (es : Entries) : (write es).fault ≠ some .tooDeep := by
  intro h
  have hpart := Writer.error_mem_of_fault h
  rcases List.mem_cons.mp hpart with hversion | hpart
  · exact Writer.integer_ne_tooDeep _ _ hversion.symm
  rcases List.mem_cons.mp hpart with hcount | hpart
  · exact Writer.integer_ne_tooDeep _ _ hcount.symm
  · obtain ⟨e, -, he⟩ := List.mem_flatMap.mp hpart
    exact entryParts_ne_tooDeep e _ he rfl

end StoreFile

/-! ### Replacing -/

theorem FileName.check_ne_tooDeep (t : Text) : check t ≠ .error .tooDeep := by
  unfold check
  split
  · simp
  · split <;> simp

namespace Disk

theorem walk_ne_tooDeep (d : Disk) (t : Text) : d.walk t ≠ .error .tooDeep := by
  unfold walk
  refine bind_ne_tooDeep (FileName.check_ne_tooDeep t) fun _ => ?_
  split
  · simp [pure, Except.pure]
  · split
    · simp [pure, Except.pure]
    · split <;> simp [pure, Except.pure]

theorem modeFor_ne_tooDeep (d : Disk) (l : Location) : d.modeFor l ≠ .error .tooDeep := by
  unfold modeFor
  refine bind_ne_tooDeep (walk_ne_tooDeep d _) fun w => ?_
  split <;> simp [pure, Except.pure]

theorem temporaryPlace_ne_tooDeep (d : Disk) (directory : Place) (name : Text) :
    d.temporaryPlace directory name ≠ .error .tooDeep := by
  unfold temporaryPlace
  refine bind_ne_tooDeep (FileName.check_ne_tooDeep name) fun _ => ?_
  split
  · simp
  · dsimp only
    split <;> simp [pure, Except.pure]

theorem rename_ne_tooDeep (d : Disk) (place : Place) (node : Node) (l : Location) :
    d.rename place node l ≠ .error .tooDeep := by
  unfold rename
  split
  · simp
  · refine bind_ne_tooDeep (walk_ne_tooDeep d _) fun w => ?_
    split <;> simp [pure, Except.pure]

theorem fill_ne_tooDeep (d : Disk) (place : Place) (b : Bytes) (m : Nat) :
    (d.fill place b m).1 ≠ .error .tooDeep := by
  unfold fill
  split
  · simp
  · dsimp only
    split <;> simp

theorem transfer_ne_tooDeep {d : Disk} {place : Place} {l : Location} {b : Bytes}
    {refused : Option Fault} (hrefused : refused ≠ some .tooDeep) :
    (d.transfer place l b refused).1 ≠ .error .tooDeep := by
  intro h
  unfold transfer at h
  dsimp only at h
  split at h
  · rename_i hmode
    exact modeFor_ne_tooDeep _ _ (hmode.trans (congrArg _ (Except.error.inj h)))
  · split at h
    · simp at h
    · split at h
      · rename_i hfill
        exact fill_ne_tooDeep _ _ _ _ ((congrArg Prod.fst hfill).trans h)
      · split at h
        · exact hrefused (congrArg some (Except.error.inj h))
        · split at h
          · simp at h
          · split at h
            · rename_i hrename
              exact rename_ne_tooDeep _ _ _ _ (hrename.trans (congrArg _ (Except.error.inj h)))
            · simp at h

/-- Nothing but making directories goes too deep, so there is no temporary file yet. -/
theorem replace_eq_tooDeep {d d' : Disk} {l : Location} {b : Bytes} {refused : Option Fault}
    {left : Option Place} (hrefused : refused ≠ some .tooDeep)
    (h : d.replace l b refused = (.error .tooDeep, left, d')) :
    (d.makeDirectories l.parent).1 = .error .tooDeep ∧ left = none := by
  unfold replace at h
  split at h
  · rename_i hmake
    cases h
    rw [hmake]
    exact ⟨rfl, rfl⟩
  · split at h
    · rename_i htemporary
      cases h
      exact absurd htemporary (temporaryPlace_ne_tooDeep _ _ _)
    · split at h
      · rename_i htransfer
        obtain rfl := Except.error.inj (congrArg Prod.fst h)
        exact absurd (congrArg Prod.fst htransfer) (transfer_ne_tooDeep hrefused)
      · simp at h

end Disk

/-- **Saving is a fault only where too many directories are missing.** -/
theorem Library.save_eq_error {l : Library β} {d : Disk} {e : Fault}
    (h : (l.save d).1 = .error e) :
    e = .tooDeep ∧ (d.makeDirectories l.location.parent).1 = .error .tooDeep := by
  unfold save at h
  split at h
  · simp at h
  · dsimp only at h
    split at h
    · simp at h
    · rename_i hreplace
      refine ⟨(Except.error.inj h).symm, ?_⟩
      exact (Disk.replace_eq_tooDeep (StoreFile.fault_ne_tooDeep _) hreplace).1
    · simp at h

end GestureStore
