/-
A file that was cut off is not loaded.

Nothing in a file says where it ends, and there is no sum to check.  A cut is found out
because every list comes with its number: bytes are laid out as sections up to one
place only (`Layout.end_unique`), so a file that still was laid out as some sections
would end twice.  The version does not help a cut file either, as two bytes of it are
the version that was written.

What is cut off need not be missed first.  A library may refuse a gesture that is still
there; then it is for that gesture that the file is not loaded.
-/
import GestureStore.Proofs.Library.Canonical

namespace GestureStore

/-! ### Where sections end -/

namespace StoreFile

/-- **Bytes that begin with sections tell where the sections end.** -/
theorem Layout.end_unique {es es' : Entries} {f f' rest rest' : Bytes} (h : Layout es f)
    (h' : Layout es' f') (heq : f ++ rest = f' ++ rest') : rest = rest' := by
  have hread : read (f ++ rest) = .ok (.known ⟨es.pairs, none, rest⟩) :=
    read_eq_iff_layout.mpr ⟨es, f, h, rfl, rfl⟩
  have hread' : read (f ++ rest) = .ok (.known ⟨es'.pairs, none, rest'⟩) :=
    read_eq_iff_layout.mpr ⟨es', f', h', heq, rfl⟩
  rw [hread] at hread'
  obtain ⟨-, -, hrest⟩ := Reader.Run.mk.inj (Contents.known.inj (Except.ok.inj hread'))
  exact hrest

/-- Whatever begins as a file of another version does not go on as sections. -/
theorem Foreign.append {cut : Bytes} (h : Foreign cut) (lost : Bytes) : Foreign (cut ++ lost) := by
  obtain ⟨v, f, rest, hf, hv, rfl⟩ := h
  exact ⟨v, f, rest ++ lost, hf, hv, List.append_assoc f rest lost⟩

end StoreFile

namespace Library

variable [Scalar α] [Stored β α]

/-- What is left of sections after a cut cannot be taken in. -/
theorem not_loads_of_cut {policy : Policy} {es : Entries} {cut lost : Bytes}
    (hlayout : StoreFile.Layout es (cut ++ lost)) (hlost : lost ≠ []) :
    ¬ ∃ s : Staged β, Loads policy cut s := by
  rw [exists_loads_iff]
  intro h
  rcases h with hforeign | ⟨sections, f, rest, hsections, rfl, -⟩
  · have hwhole := hforeign.append lost
    rw [← List.append_nil (cut ++ lost)] at hwhole
    exact hlayout.not_foreign [] hwhole
  · have hends : [] = rest ++ lost :=
      hlayout.end_unique hsections ((List.append_nil _).trans (List.append_assoc f rest lost))
    exact hlost (List.append_eq_nil_iff.mp hends.symm).2

/-- What is not loaded is reported. -/
theorem loadBytes_refused {l : Library β} {bytes : Bytes} (h : (l.loadBytes bytes).1 = false) :
    ∃ cause, (l.loadBytes bytes).2.1 = [.notLoaded l.location cause] := by
  unfold loadBytes at h ⊢
  dsimp only at h ⊢
  cases hread : StoreFile.read bytes with
  | error e => exact ⟨e, rfl⟩
  | ok contents =>
      rw [hread] at h
      cases contents with
      | unknown v => cases h
      | known run =>
          dsimp only at h ⊢
          split at h
          · exact ⟨_, rfl⟩
          · cases h

end Library

/-! ### Cut files -/

/--
**A file that was cut off is not loaded.**

Take any entries that can be written, and what is left of their file when one or more
bytes at its end are lost.  A library of any policy, whatever it holds, that finds this
as its file answers that nothing was loaded.  It says so in a notice, and it holds what
it held before.
-/
theorem cut_file_is_not_loaded [Scalar α] [Stored β α] {es : Entries}
    (hwritten : (StoreFile.write es).fault = none) {cut : Bytes}
    (hbegins : cut <+: (StoreFile.write es).bytes) (hcut : cut ≠ (StoreFile.write es).bytes)
    (w : Workspace β) (hfile : w.disk.contents? w.library.location = .ok (some cut)) :
    (w.perform .load).1.outcome = .ok (.flag false) ∧
      (∃ cause, (w.perform .load).1.notices = [.notLoaded w.library.location cause]) ∧
      (w.perform .load).2.library.state = w.library.state ∧ (w.perform .load).2.disk = w.disk := by
  obtain ⟨lost, hlost⟩ := hbegins
  have hlayout := StoreFile.layout_of_fault hwritten
  rw [← hlost] at hlayout hcut
  have hnot : ¬ ∃ s : Library.Staged β, Library.Loads w.library.policy cut s := by
    refine Library.not_loads_of_cut hlayout fun hnil => hcut ?_
    rw [hnil, List.append_nil]
  have hanswer : (w.library.loadBytes cut).1 = false := by
    rw [Bool.eq_false_iff]
    exact fun htrue => hnot ((w.library.loadBytes_eq_true_iff cut).mp htrue)
  have hperform : w.perform .load = (⟨.ok (.flag false), (w.library.loadBytes cut).2.1⟩,
      w.withLibrary (w.library.loadBytes cut).2.2) := by
    rw [Workspace.perform, Library.load_eq_loadBytes hfile, hanswer]
    rfl
  rw [hperform]
  refine ⟨rfl, Library.loadBytes_refused hanswer, ?_, rfl⟩
  rcases w.library.loadBytes_cases cut with ⟨-, hstate, -⟩ | ⟨s, hs, -⟩
  · exact hstate
  · exact absurd ⟨s, hs⟩ hnot

/-- Neither half a version nor a file of three dots without its last byte is loaded by a library
that holds another dot. -/
theorem cut_dots_are_not_loaded :
    let held := (Workspace.dotted 7).library
    let dots := (StoreFile.write StoreFile.interleaved).bytes
    ∀ cut ∈ [(StoreFile.write []).bytes.take 1, dots.take (dots.length - 1)],
      let w : Workspace Single := ⟨held, .holding (Text.of "s") cut⟩
      (w.perform .load).1.outcome = .ok (.flag false) ∧
        (w.perform .load).2.library.state = held.state := by
  intro held dots cut hcut w
  have hempty : (StoreFile.write []).fault = none ∧
      (StoreFile.write []).bytes.take 1 ≠ (StoreFile.write []).bytes := by decide
  have hdots : (StoreFile.write StoreFile.interleaved).fault = none ∧
      dots.take (dots.length - 1) ≠ dots := by decide +kernel
  have hfile : w.disk.contents? w.library.location = .ok (some cut) := Disk.contents?_holding cut
  have hrefused : ∀ es, (StoreFile.write es).fault = none → cut <+: (StoreFile.write es).bytes →
      cut ≠ (StoreFile.write es).bytes →
      (w.perform .load).1.outcome = .ok (.flag false) ∧
        (w.perform .load).2.library.state = held.state := by
    intro es hwritten hbegins hcut
    obtain ⟨houtcome, -, hstate, -⟩ := cut_file_is_not_loaded hwritten hbegins hcut w hfile
    exact ⟨houtcome, hstate⟩
  rcases List.mem_cons.mp hcut with hcut | hcut
  · exact hrefused [] hempty.1 (hcut ▸ List.take_prefix _ _) (hcut ▸ hempty.2)
  · rw [List.mem_singleton] at hcut
    exact hrefused _ hdots.1 (hcut ▸ List.take_prefix _ _) (hcut ▸ hdots.2)

end GestureStore
