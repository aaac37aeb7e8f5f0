/-
Rebuilding is reloading.

There are two ways to extract every stored gesture under the policy in force.  One goes
through the entries; the other writes them to a file, which a library that holds nothing
yet then takes in, gesture by gesture.  Both come to the same.  What was written is laid
out as the entries are, so the gestures come in the same order, and which of them can be
extracted is for both the same question (`Entries.Admitted`).  If one cannot be, either
way leaves the library as it is.
-/
import GestureStore.Proofs.Feature.Instance
import GestureStore.Proofs.Library.Loading
import GestureStore.Proofs.Library.Writable

namespace GestureStore

variable [Scalar α] [Stored β α]

namespace Library

/-- Gestures that are not all extracted are refused as input. -/
theorem extractAll_eq_error {policy : Policy} {items : List (Text × Gesture)} {w : Watch Float}
    {e : Fault} (h : (extractAll policy items w : Except Fault (List (Instance β)) × _).1 = .error e) :
    ∃ cause, e = .input cause := by
  induction items generalizing w with
  | nil => cases h
  | cons p rest ih =>
      unfold extractAll at h
      split at h
      · rename_i e' w' hfirst
        cases h
        exact Instance.extract_eq_error (extract_eq hfirst)
      · rename_i i w' hfirst
        split at h
        · rename_i e' w'' hrest
          cases h
          exact ih (w := w') (by rw [hrest])
        · cases h

/-- Entries can be extracted, all of them, exactly if the policy admits them. -/
theorem exists_extracted_iff {policy : Policy} {es : Entries}
    (hids : (es.pairs.map fun p => p.2.id).Nodup) :
    (∃ is : List (Instance β), List.Forall₂ (Extracted policy) es.pairs is) ↔
      es.Admitted policy := by
  rw [← exists_taken_iff (β := β)]
  refine ⟨fun h => ?_, fun h => ?_⟩
  · obtain ⟨is, his⟩ := h
    exact ⟨⟨Entries.ofPairs es.pairs, ⟨is⟩⟩, taken_empty_iff.mpr ⟨hids, his, rfl⟩⟩
  · obtain ⟨s, hs⟩ := h
    exact ⟨_, (taken_empty_iff.mp hs).2.1⟩

/-- **Rebuilding a library that the policy admits gives every gesture its instance, in order.** -/
theorem rebuild_of_admitted {l : Library β} (hids : (l.entries.pairs.map fun p => p.2.id).Nodup)
    (h : l.entries.Admitted l.policy) :
    ∃ is, List.Forall₂ (Extracted l.policy) l.entries.pairs is ∧ l.rebuild.1 = .ok () ∧
      l.rebuild.2.state = { l.state with learner := ⟨is⟩ } := by
  obtain ⟨is, his⟩ := (exists_extracted_iff (β := β) hids).mpr h
  have hall := (extractAll_eq_ok_iff (w := l.watch)).mpr his
  have hinstances : (Learner.empty.addAll is).instances = is := by
    refine Learner.instances_addAll ?_
    show (is.map Instance.id).Nodup
    rw [forall₂_ids his]
    exact hids
  have hlearner : Learner.empty.addAll is = ⟨is⟩ := congrArg Learner.mk hinstances
  refine ⟨is, his, ?_⟩
  unfold rebuild
  split
  · rename_i e watch hrun
    rw [hrun] at hall
    cases hall
  · rename_i js watch hrun
    rw [hrun] at hall
    obtain rfl := Except.ok.inj hall
    rw [hlearner]
    exact ⟨rfl, rfl⟩

/-- Rebuilding another one is refused as input. -/
theorem rebuild_of_not_admitted {l : Library β}
    (hids : (l.entries.pairs.map fun p => p.2.id).Nodup) (h : ¬ l.entries.Admitted l.policy) :
    ∃ cause, l.rebuild.1 = .error (.input cause) := by
  unfold rebuild
  split
  · rename_i e watch hrun
    obtain ⟨cause, rfl⟩ := extractAll_eq_error (congrArg Prod.fst hrun)
    exact ⟨cause, rfl⟩
  · rename_i is watch hrun
    refine absurd ((exists_extracted_iff (β := β) hids).mp ⟨is, ?_⟩) h
    exact extractAll_eq_ok_iff.mp (congrArg Prod.fst hrun)

end Library

omit [Scalar α] [Stored β α] in
theorem Library.learner_eq_of_state {l : Library β} {st : State β} (h : l.state = st) :
    l.learner = st.learner := congrArg State.learner h

/-- A library in step and its file, before and after both are extracted anew. -/
theorem InStep.rebuild_eq_reload {since : Int → Policy} {w fresh : Workspace β}
    (h : InStep since w.library.entries w.library.learner)
    (hpolicy : fresh.library.policy = w.library.policy)
    (hwritten : (StoreFile.write w.library.entries).fault = none)
    (hfile : fresh.disk.contents? fresh.library.location
      = .ok (some (StoreFile.write w.library.entries).bytes)) :
    ((∃ cause, (w.perform .rebuild).1.outcome = .error (.input cause)) ↔
        (fresh.perform .load).1.outcome = .ok (.flag false)) ∧
      ((w.perform .rebuild).1.outcome = .ok .done ↔
        (fresh.perform .load).1.outcome = .ok (.flag true)) ∧
      ((w.perform .rebuild).1.outcome = .ok .done →
        (w.perform .rebuild).2.library.learner = (fresh.perform .load).2.library.learner ∧
        (w.perform .rebuild).2.library.entries = w.library.entries ∧
        (w.perform .rebuild).2.library.dirty = w.library.dirty) := by
  have hlayout := StoreFile.layout_of_fault hwritten
  have hiff := fresh.library.loadBytes_layout_iff hlayout []
  rw [List.append_nil, hpolicy] at hiff
  obtain ⟨houtcome, hlibrary⟩ := Workspace.perform_load (Library.load_eq_loadBytes hfile)
  have hrebuild : (w.perform .rebuild).1.outcome = w.library.rebuild.1.map fun _ => .done := rfl
  rw [houtcome, hlibrary, hrebuild]
  by_cases hadmitted : w.library.entries.Admitted w.library.policy
  · obtain ⟨is, his, hdone, hstate⟩ := Library.rebuild_of_admitted h.distinct hadmitted
    have htrue := hiff.mpr hadmitted
    have hloaded : (fresh.library.loadBytes
        ((StoreFile.write w.library.entries).bytes ++ [])).1 = true := by
      rw [List.append_nil]
      exact htrue
    obtain ⟨js, hjs, hstate'⟩ := Library.loadBytes_layout hlayout hloaded
    rw [List.append_nil] at hstate'
    rw [hpolicy] at hjs
    obtain rfl := Library.extracted_unique his hjs
    rw [htrue, hdone]
    refine ⟨by simp [Except.map], by simp [Except.map], fun _ => ⟨?_, ?_, ?_⟩⟩
    · exact (Library.learner_eq_of_state hstate).trans (Library.learner_eq_of_state hstate').symm
    · exact congrArg Library.State.entries hstate
    · exact congrArg Library.State.dirty hstate
  · obtain ⟨cause, hrefused⟩ := Library.rebuild_of_not_admitted h.distinct hadmitted
    have hfalse := Bool.eq_false_iff.mpr fun htrue => hadmitted (hiff.mp htrue)
    rw [hfalse, hrefused]
    simp [Except.map]

/--
**Rebuilding is reloading.**

Take the library after any run, with identifiers and counts that fit their fields, and a
library that holds nothing yet, with the same policy and with the bytes in its file that
the first would write.  Rebuilding the first is refused as input exactly if the second
cannot load its file, and succeeds exactly if it can.  Then both have the same instances
in the same order, and the first still has the same entries, and as much to save.
-/
theorem rebuilding_is_reloading (location : Location) (policy : Policy)
    (profiler : Option (Profiler Float)) (disk : Disk) (events : List Event)
    (location' : Location) (profiler' : Option (Profiler Float)) (disk' : Disk) :
    let w : Workspace β := (Workspace.start location policy profiler disk).play events
    let fresh : Workspace β := .start location' w.library.policy profiler' disk'
    let rebuilt := w.perform .rebuild
    let loaded := fresh.perform .load
    w.library.entries.Fits →
    disk'.contents? location' = .ok (some (StoreFile.write w.library.entries).bytes) →
    (StoreFile.write w.library.entries).fault = none ∧
      ((∃ cause, rebuilt.1.outcome = .error (.input cause)) ↔
        loaded.1.outcome = .ok (.flag false)) ∧
      (rebuilt.1.outcome = .ok .done ↔ loaded.1.outcome = .ok (.flag true)) ∧
      (rebuilt.1.outcome = .ok .done →
        rebuilt.2.library.learner = loaded.2.library.learner ∧
        rebuilt.2.library.entries = w.library.entries ∧
        rebuilt.2.library.dirty = w.library.dirty) := by
  intro w fresh rebuilt loaded hfits hfile
  have h : InStep _ w.library.entries w.library.learner :=
    Workspace.play_inStep location policy profiler disk events
  have hwritten := hfits.fault_eq_none h.exists_utf
  exact ⟨hwritten, h.rebuild_eq_reload rfl hwritten hfile⟩

/-- Rebuilding what was saved gives what a library finds that loads it, and neither succeeds once
strokes have to be single. -/
theorem saved_entries_are_rebuilt :
    let w := Workspace.gathered
    let fresh : Workspace Single := .start ⟨1, [Text.of "s"]⟩ w.library.policy none w.disk
    let strict := w.after (.operate (.setSequence .sensitive))
    let fresh' : Workspace Single := .start ⟨1, [Text.of "s"]⟩ strict.library.policy none w.disk
    ((w.perform .rebuild).1.outcome = .ok .done ∧
      (fresh.perform .load).1.outcome = .ok (.flag true) ∧
      (w.perform .rebuild).2.library.learner = (fresh.perform .load).2.library.learner ∧
      (w.perform .rebuild).2.library.entries = .gathered) ∧
    (∃ cause, (strict.perform .rebuild).1.outcome = .error (.input cause)) ∧
      (fresh'.perform .load).1.outcome = .ok (.flag false) := by
  intro w fresh strict fresh'
  have hfile : w.disk.contents? ⟨1, [Text.of "s"]⟩
      = .ok (some (StoreFile.write w.library.entries).bytes) := rfl
  obtain ⟨-, -, hiff, hsame⟩ := rebuilding_is_reloading (β := Single) ⟨1, [Text.of "s"]⟩
    ⟨.invariant, none⟩ none .blank Event.gathering ⟨1, [Text.of "s"]⟩ none w.disk
    Workspace.fits_gathered hfile
  have hplay : (Workspace.start ⟨1, [Text.of "s"]⟩ ⟨.invariant, none⟩ none .blank
      : Workspace Single).play (Event.gathering ++ [.operate (.setSequence .sensitive)])
        = strict := List.foldl_append
  have hstrict := rebuilding_is_reloading (β := Single) ⟨1, [Text.of "s"]⟩ ⟨.invariant, none⟩ none
    .blank (Event.gathering ++ [.operate (.setSequence .sensitive)]) ⟨1, [Text.of "s"]⟩ none w.disk
  rw [hplay] at hstrict
  obtain ⟨-, hiff', -, -⟩ := hstrict Workspace.fits_gathered hfile
  have hdone : (w.perform .rebuild).1.outcome = .ok .done := rfl
  have hrefused : ∃ cause, (strict.perform .rebuild).1.outcome = .error (.input cause) := ⟨_, rfl⟩
  refine ⟨⟨hdone, hiff.mp hdone, (hsame hdone).1, ?_⟩, hrefused, hiff'.mp hrefused⟩
  rw [← Workspace.entries_gathered]
  exact (hsame hdone).2.1

end GestureStore
