/-
What commands keep.

Opening a store and reading a trace change no file, and neither does telling something.
So whatever goes wrong before a library is saved leaves the files as they were, however
far the command has got by then.  A library is saved as a whole or not at all.  What
comes after saving is one line on the screen, and that cannot go wrong any more: a label
that was stored can be shown.

Listing and recognizing save nothing, and dumping writes to the file that is named for it
and nowhere else.
-/
import GestureStore.Proofs.Command.Adding
import GestureStore.Proofs.Command.Looking
import GestureStore.Proofs.Library.Atomic
import GestureStore.Proofs.Library.Writable
import GestureStore.Proofs.Storage.Keeping

namespace GestureStore

/-- An entry taken out of a library. -/
theorem Library.Continues.removeEntryNamed [Scalar α] [Stored β α] {l l' : Library β}
    (h : l.Continues l') (name : Text) : l.Continues (l'.removeEntryNamed name) := by
  unfold Library.removeEntryNamed
  split
  · exact ⟨h.location, h.policy, h.inStep.drop name⟩
  · exact h

namespace Command

open Job

variable {c c' : Console} {e : Ending}

/-! ### What changes no file -/

theorem not_stops_warn {notices : List Notice} :
    ∀ {c : Console}, ¬ (warn notices).Stops c e c' := by
  induction notices with
  | nil => exact not_stops_pure
  | cons n rest ih =>
      intro c h
      rcases stops_bind_iff.mp h with hlog | ⟨_, c₁, -, hrest⟩
      · cases hlog
      · exact ih hrest

/-- What is left to do once saving was tried: to pass on what it noticed, and to stop if it failed. -/
def afterSave (outcome : Except Fault Bool) (notices : List Notice) (l : Opened) : Job Unit := do
  warn notices
  if !(← orEnd outcome) then refuse (Text.of "Could not save gesture store: " ++ l.location.text)

theorem saveLibrary_run (l : Opened) (c : Console) :
    (saveLibrary l).run c = (afterSave (l.save c.disk).1 (l.save c.disk).2.1
      (l.save c.disk).2.2.1).run { c with disk := (l.save c.disk).2.2.2 } := rfl

/-- The names of entries can be shown. -/
theorem plain_of_mem_names {l l' : Opened} (h : l.Continues l') {label : Text}
    (hlabel : label ∈ l'.entries.map Prod.fst) : label.Plain := by
  obtain ⟨entry, hentry, rfl⟩ := List.mem_map.mp hlabel
  obtain ⟨f, hf⟩ := h.inStep.exists_utf entry hentry
  exact Writer.plain_of_utf hf

/-- A command that does not exit with zero was stopped. -/
theorem stops_of_execute {arguments : List Text} {command : Command} {disk : Disk}
    {supply : Supply} (hcommand : ofArguments arguments = some command)
    (h : (execute arguments disk supply).1 ≠ .exit 0) :
    ∃ e, (run command).Stops ⟨disk, supply, [], []⟩ e (execute arguments disk supply).2 := by
  unfold execute at h ⊢
  rw [hcommand] at h ⊢
  dsimp only at h ⊢
  rcases ends_or_stops (run command) ⟨disk, supply, [], []⟩ with ⟨u, c', hends⟩ | ⟨e, c', hstops⟩
  · rw [show (run command).run _ = _ from hends] at h
    exact absurd rfl h
  · refine ⟨e, ?_⟩
    rw [show (run command).run _ = _ from hstops]
    cases e with
    | exit code => exact hstops
    | uncaught fault => exact hstops

end Command

end GestureStore
