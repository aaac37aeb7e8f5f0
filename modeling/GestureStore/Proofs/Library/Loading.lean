/-
Which files are loaded, and what a library holds then.

A file is taken in as a whole or not at all.  Of another version every file is taken,
and nothing from it.  Of the known version a file is taken if it begins with bytes that
are laid out as sections, and the policy admits the sections (`Entries.Admitted`):
identifiers are distinct, every gesture has strokes, and a single one where their
order counts.  Whatever stands behind the sections is not looked at.  A file that was
written for tidy entries gives these entries back (`loadBytes_write`).

Loading answers for any bytes whatever; nothing in a file can make it fail.
-/
import GestureStore.Proofs.Library.Admission
import GestureStore.Proofs.Library.Merging
import GestureStore.Proofs.Library.Runs
import GestureStore.Proofs.Wire.Layout

namespace GestureStore

namespace Library

variable [Scalar α] [Stored β α]

/-! ### Loading files -/

/-- **Which files can be loaded.** -/
theorem exists_loads_iff {policy : Policy} {bytes : Bytes} :
    (∃ s : Staged β, Loads policy bytes s) ↔
      StoreFile.Foreign bytes ∨ ∃ sections f rest,
        StoreFile.Layout sections f ∧ bytes = f ++ rest ∧ sections.Admitted policy := by
  refine ⟨fun h => ?_, fun h => ?_⟩
  · obtain ⟨s, hs⟩ := h
    cases hs with
    | unknown read => exact Or.inl (StoreFile.exists_read_unknown_iff.mp ⟨_, read⟩)
    | @known items rest _ read taken =>
        obtain ⟨sections, f, hlayout, hbytes, rfl⟩ := StoreFile.read_eq_iff_layout.mp read
        exact Or.inr ⟨sections, f, rest, hlayout, hbytes, exists_taken_iff.mp ⟨s, taken⟩⟩
  · rcases h with hforeign | ⟨sections, f, rest, hlayout, hbytes, hadmitted⟩
    · obtain ⟨v, hread⟩ := StoreFile.exists_read_unknown_iff.mpr hforeign
      exact ⟨_, .unknown hread⟩
    · obtain ⟨s, hs⟩ := (exists_taken_iff (β := β)).mpr hadmitted
      have hread := StoreFile.read_eq_iff_layout.mpr ⟨sections, f, hlayout, hbytes, rfl⟩
      exact ⟨s, .known hread hs⟩

/-- From a file of another version nothing is taken. -/
theorem Loads.of_foreign {policy : Policy} {bytes : Bytes} {s : Staged β}
    (h : Loads policy bytes s) (hforeign : StoreFile.Foreign bytes) : s = ⟨[], Learner.empty⟩ := by
  obtain ⟨v, hread⟩ := StoreFile.exists_read_unknown_iff.mpr hforeign
  cases h with
  | unknown _ => rfl
  | known read _ =>
      rw [hread] at read
      simp at read

/-- A file that is laid out as sections gives their gestures. -/
theorem loads_iff_taken {policy : Policy} {sections : Entries} {f rest : Bytes} {s : Staged β}
    (hlayout : StoreFile.Layout sections f) :
    Loads policy (f ++ rest) s ↔ Taken policy ⟨[], Learner.empty⟩ sections.pairs s := by
  have hread : StoreFile.read (f ++ rest) = .ok (.known ⟨sections.pairs, none, rest⟩) :=
    StoreFile.read_eq_iff_layout.mpr ⟨sections, f, hlayout, rfl, rfl⟩
  refine ⟨fun h => ?_, .known hread⟩
  cases h with
  | unknown read =>
      rw [hread] at read
      simp at read
  | known read taken =>
      rw [hread] at read
      obtain ⟨rfl, -, -⟩ := StoreFile.Contents.known.inj (Except.ok.inj read)
      exact taken

/-- A file that is laid out as sections is loaded exactly if the policy admits them. -/
theorem loadBytes_layout_iff (l : Library β) {sections : Entries} {f : Bytes}
    (hlayout : StoreFile.Layout sections f) (rest : Bytes) :
    (l.loadBytes (f ++ rest)).1 = true ↔ sections.Admitted l.policy := by
  rw [loadBytes_eq_true_iff, ← exists_taken_iff (β := β)]
  exact exists_congr fun s => loads_iff_taken hlayout

/-- What a library holds after loading sections. -/
theorem loadBytes_layout {l : Library β} {sections : Entries} {f rest : Bytes}
    (hlayout : StoreFile.Layout sections f) (h : (l.loadBytes (f ++ rest)).1 = true) :
    ∃ is, List.Forall₂ (Extracted l.policy) sections.pairs is ∧
      (l.loadBytes (f ++ rest)).2.2.state
        = { l.state with entries := sections.merged, learner := ⟨is⟩, dirty := false } := by
  rcases l.loadBytes_cases (f ++ rest) with ⟨hanswer, -, -⟩ | ⟨s, hs, -, hstate⟩
  · rw [hanswer] at h
    simp at h
  · rw [loads_iff_taken hlayout] at hs
    obtain ⟨-, his, hentries⟩ := taken_empty_iff.mp hs
    refine ⟨s.learner.instances, his, ?_⟩
    rw [hstate, hentries, Entries.ofPairs_eq_merged]

theorem loadBytes_entries {l : Library β} {sections : Entries} {f rest : Bytes}
    (hlayout : StoreFile.Layout sections f) (h : (l.loadBytes (f ++ rest)).1 = true) :
    (l.loadBytes (f ++ rest)).2.2.entries = sections.merged := by
  obtain ⟨is, -, hstate⟩ := loadBytes_layout hlayout h
  exact congrArg State.entries hstate

/-- A library that took a file of sections holds them under a policy that admits them. -/
theorem holds_of_load {l loaded : Library β} {d : Disk} {sections : Entries} {f rest : Bytes}
    {notices : List Notice} (hlayout : StoreFile.Layout sections f)
    (hfile : d.contents? l.location = .ok (some (f ++ rest)))
    (hload : l.load d = (.ok true, notices, loaded)) :
    sections.Admitted l.policy ∧ loaded.entries = sections.merged ∧
      List.Forall₂ (Extracted l.policy) sections.pairs loaded.learner.instances := by
  rw [load_eq_loadBytes hfile, Prod.mk.injEq, Prod.mk.injEq, Except.ok.injEq] at hload
  obtain ⟨htaken, -, rfl⟩ := hload
  obtain ⟨is, his, hstate⟩ := loadBytes_layout hlayout htaken
  have hinstances : (l.loadBytes (f ++ rest)).2.2.learner.instances = is :=
    congrArg (fun st => st.learner.instances) hstate
  rw [hinstances]
  exact ⟨(l.loadBytes_layout_iff hlayout rest).mp htaken, loadBytes_entries hlayout htaken, his⟩

/-- **Sections that the policy admits are loaded, whatever stands behind them.** -/
theorem load_layout {l : Library β} {d : Disk} {sections : Entries} {f rest : Bytes}
    (hlayout : StoreFile.Layout sections f) (hadmitted : sections.Admitted l.policy)
    (hfile : d.contents? l.location = .ok (some (f ++ rest))) :
    ∃ notices loaded, l.load d = (.ok true, notices, loaded) ∧
      loaded.entries = sections.merged ∧
      List.Forall₂ (Extracted l.policy) sections.pairs loaded.learner.instances := by
  have hload := load_eq_loadBytes hfile
  rw [(l.loadBytes_layout_iff hlayout rest).mpr hadmitted] at hload
  exact ⟨_, _, hload, (holds_of_load hlayout hfile hload).2⟩

/-- **Loading what was written, with anything behind it.** -/
theorem loadBytes_write (l : Library β) {es : Entries} (htidy : es.Tidy)
    (hids : (es.gestures.map Gesture.id).Nodup) (hstrokes : ∀ g ∈ es.gestures, g.strokes ≠ [])
    (hwritten : (StoreFile.write es).fault = none) (rest : Bytes) :
    ((l.loadBytes ((StoreFile.write es).bytes ++ rest)).1 = true ↔
        l.policy.sequence = .invariant ∨ ∀ g ∈ es.gestures, g.strokes.length = 1) ∧
      ((l.loadBytes ((StoreFile.write es).bytes ++ rest)).1 = true →
        (l.loadBytes ((StoreFile.write es).bytes ++ rest)).2.2.entries = es) := by
  have hlayout := StoreFile.layout_of_fault hwritten
  refine ⟨?_, fun h => ?_⟩
  · rw [l.loadBytes_layout_iff hlayout, Entries.admitted_iff hids hstrokes]
  · rw [loadBytes_entries hlayout h, Entries.merged_of_tidy htidy]

end Library

open Library in
/--
**Loading takes exactly the files of the format, and never fails.**

Let the file of a library hold any bytes whatever.  Loading answers; the answer is yes
exactly if the version is another one than that of the format, or if the bytes begin
with sections that the policy admits.  From a file of another version nothing is
taken.  From sections every gesture is, in order: names come in the order in which
they first have a gesture, each with the gestures of all its sections, and the learner
has one instance for each gesture, in the order of the file.  Either way there is
nothing left to save.
-/
theorem load_takes_exactly_the_format [Scalar α] [Stored β α] (w : Workspace β) {bytes : Bytes}
    (hfile : w.disk.contents? w.library.location = .ok (some bytes)) :
    ∃ taken : Bool, (w.perform .load).1.outcome = .ok (.flag taken) ∧
      (taken = true ↔ StoreFile.Foreign bytes ∨ ∃ sections f rest,
        StoreFile.Layout sections f ∧ bytes = f ++ rest ∧ sections.Admitted w.library.policy) ∧
      (taken = true → StoreFile.Foreign bytes →
        (w.perform .load).2.library.state
          = { w.library.state with entries := [], learner := Learner.empty, dirty := false }) ∧
      ∀ sections f rest, taken = true → StoreFile.Layout sections f → bytes = f ++ rest →
        ∃ is, List.Forall₂ (Extracted w.library.policy) sections.pairs is ∧
          (w.perform .load).2.library.state
            = { w.library.state with
                entries := sections.merged, learner := ⟨is⟩, dirty := false } := by
  obtain ⟨houtcome, hlibrary⟩ := Workspace.perform_load (load_eq_loadBytes hfile)
  refine ⟨_, houtcome, ?_, ?_, ?_⟩
  · rw [loadBytes_eq_true_iff, exists_loads_iff]
  · intro htaken hforeign
    rcases w.library.loadBytes_cases bytes with ⟨hanswer, -, -⟩ | ⟨s, hs, -, hstate⟩
    · rw [hanswer] at htaken
      simp at htaken
    · rw [hlibrary, hstate, hs.of_foreign hforeign]
  · intro sections f rest htaken hlayout hbytes
    subst hbytes
    rw [hlibrary]
    exact loadBytes_layout hlayout htaken

/-! ### Files to load -/

theorem Workspace.fits_gathered : gathered.library.entries.Fits := by
  rw [entries_gathered]
  refine ⟨by decide, by decide, ?_, ?_, ?_⟩
  all_goals simp [Entries.gestures, Entries.gathered, Gesture.dot, Gesture.cross]

/-- A dot of one name, then one of another, then one of the first again. -/
def StoreFile.interleaved : Entries :=
  [(Text.of "a", [.dot 1]), (Text.of "b", [.dot 2]), (Text.of "a", [.dot 3])]

/-- A disk with one file, in the root. -/
def Disk.holding (name : Text) (bytes : Bytes) : Disk :=
  { Disk.blank with nodes := [(Place.root.child name, .file bytes newFileMode)] }

theorem Disk.contents?_holding (bytes : Bytes) :
    (Disk.holding (Text.of "s") bytes).contents? ⟨1, [Text.of "s"]⟩ = .ok (some bytes) := rfl

theorem StoreFile.layout_interleaved : Layout interleaved (write interleaved).bytes :=
  writes_parts_iff.mp rfl

theorem StoreFile.interleaved_admitted (policy : Policy) : interleaved.Admitted policy :=
  ⟨by decide, by decide, fun _ => by decide⟩

/-- The gestures of a name come together when the file is loaded, and what stands behind is left. -/
theorem interleaved_file_is_taken :
    let w : Workspace Single := .start ⟨1, [Text.of "s"]⟩ ⟨.sensitive, none⟩ none
      (.holding (Text.of "s") ((StoreFile.write StoreFile.interleaved).bytes ++ [255]))
    (w.perform .load).1.outcome = .ok (.flag true) ∧
      (w.perform .load).2.library.entries
        = [(Text.of "a", [.dot 1, .dot 3]), (Text.of "b", [.dot 2])] := by
  intro w
  obtain ⟨taken, houtcome, haccepts, -, hsections⟩ :=
    load_takes_exactly_the_format w (Disk.contents?_holding _)
  have hadmitted := StoreFile.interleaved_admitted w.library.policy
  obtain rfl : taken = true :=
    haccepts.mpr (Or.inr ⟨_, _, [255], StoreFile.layout_interleaved, rfl, hadmitted⟩)
  obtain ⟨is, -, hstate⟩ := hsections _ _ [255] rfl StoreFile.layout_interleaved rfl
  exact ⟨houtcome, congrArg Library.State.entries hstate⟩

end GestureStore
