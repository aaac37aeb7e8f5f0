/-
What an operation can do.

A library is more than what its operations are about: times are counted for stages
even when an operation fails, and who listens changes nothing.  `Library.state` leaves
both out.  `Does` lists what an operation can come to, with everything that was
checked on the way, and `perform_does` says that there is nothing else.  Whatever is
to be known of single operations, and by induction of runs, is read off that list; no
operation has to be opened again.
-/
import GestureStore.Library.Run
import GestureStore.Proofs.Library.InStep
import GestureStore.Proofs.Wire.Store

namespace GestureStore

/-! ### Stages -/

/-- What a stage computes does not depend on its being timed. -/
theorem Watch.stage_fst [Duration δ] (w : Watch δ) (name : Text) (x : Except ε α) :
    (w.stage name fun w => (x, w)).1 = x := by
  cases x <;> rfl

namespace Library

/-- A library apart from where its times go and who listens. -/
structure State (β : Type) where
  /-- Where the library is stored. -/
  location : Location
  /-- The policy under which gestures are extracted. -/
  policy : Policy
  /-- The stored gestures. -/
  entries : Entries
  /-- Their instances. -/
  learner : Learner β
  /-- Something was changed that has not been saved. -/
  dirty : Bool

/-- What of a library its operations are about. -/
def state (l : Library β) : State β := ⟨l.location, l.policy, l.entries, l.learner, l.dirty⟩

variable [Scalar α] [Stored β α]

theorem extract_fst (policy : Policy) (label : Option Text) (g : Gesture) (w : Watch Float) :
    (extract policy label g w : Except Fault (Instance β) × Watch Float).1
      = Instance.extract policy label g :=
  Watch.stage_fst w _ _

theorem extract_eq {policy : Policy} {label : Option Text} {g : Gesture} {w w' : Watch Float}
    {x : Except Fault (Instance β)} (h : extract policy label g w = (x, w')) :
    Instance.extract policy label g = x := by
  rw [← extract_fst policy label g w, h]

/-- A name may stand for an entry if it can be written. -/
theorem checkName_eq_ok_iff {name : Text} :
    checkName name = .ok () ↔ ∃ f, Writer.utf name = .ok f := by
  rw [checkName, Writer.utf]
  cases Utf8.encode name with
  | error e => simp
  | ok bytes =>
      by_cases hlong : maxTextBytes < bytes.length
      · simp [hlong]
      · simp [hlong]

/-! ### Gestures in a row -/

/-- **Extracting several gestures succeeds with the instance of each.** -/
theorem extractAll_eq_ok_iff {policy : Policy} {items : List (Text × Gesture)}
    {is : List (Instance β)} {w : Watch Float} :
    (extractAll policy items w).1 = .ok is ↔ List.Forall₂ (Extracted policy) items is := by
  induction items generalizing w is with
  | nil =>
      rw [extractAll, List.forall₂_nil_left_iff, Except.ok.injEq]
      exact eq_comm
  | cons p rest ih =>
      rw [extractAll, List.forall₂_cons_left_iff]
      split
      · rename_i e w' hfirst
        refine ⟨fun h => by simp at h, fun h => ?_⟩
        obtain ⟨i, is', hext, -, -⟩ := h
        have hboth := (extract_eq hfirst).symm.trans hext
        simp at hboth
      · rename_i i w' hfirst
        have hext : Extracted policy p i := extract_eq hfirst
        split
        · rename_i e w'' hrest
          refine ⟨fun h => by simp at h, fun h => ?_⟩
          obtain ⟨_, is', -, his, -⟩ := h
          have hboth := (ih (w := w')).mpr his
          rw [hrest] at hboth
          simp at hboth
        · rename_i is' w'' hrest
          have his : List.Forall₂ (Extracted policy) rest is' :=
            (ih (w := w')).mp (by rw [hrest])
          refine ⟨fun h => ?_, fun h => ?_⟩
          · obtain rfl := Except.ok.inj h
            exact ⟨i, is', hext, his, rfl⟩
          · obtain ⟨j, js, hj, hjs, rfl⟩ := h
            obtain rfl := Except.ok.inj (hext.symm.trans hj)
            have hboth := (ih (w := w')).mpr hjs
            rw [hrest] at hboth
            rw [Except.ok.inj hboth]

/-- Gestures taken in one after the other: each new, each extracted, each attached. -/
inductive Taken (policy : Policy) : Staged β → List (Text × Gesture) → Staged β → Prop where
  /-- There is none. -/
  | nil (s : Staged β) : Taken policy s [] s
  /-- The first of them, and the others behind it. -/
  | cons {s s' : Staged β} {name : Text} {g : Gesture} {i : Instance β}
      {rest : List (Text × Gesture)} (new : s.learner.contains g.id = false)
      (ext : Extracted policy (name, g) i)
      (later : Taken policy ⟨s.entries.add name g, s.learner.add i⟩ rest s') :
      Taken policy s ((name, g) :: rest) s'

/-- **Taking gestures in succeeds exactly if there is nothing wrong with any of them, nor later.** -/
theorem takeIn_eq_ok_iff {policy : Policy} {later : Option Fault}
    {items : List (Text × Gesture)} {s s' : Staged β} {w : Watch Float} :
    (takeIn policy later s items w).1 = .ok s' ↔ later = none ∧ Taken policy s items s' := by
  induction items generalizing s w with
  | nil =>
      cases later with
      | some e => simp [takeIn]
      | none =>
          rw [takeIn]
          refine ⟨fun h => ?_, fun h => ?_⟩
          · obtain rfl := Except.ok.inj h
            exact ⟨rfl, .nil s⟩
          · cases h.2
            rfl
  | cons p rest ih =>
      obtain ⟨name, g⟩ := p
      rw [takeIn]
      cases hnew : s.learner.contains g.id with
      | true =>
          refine ⟨fun h => by simp at h, fun h => ?_⟩
          cases h.2 with
          | cons new _ _ =>
              rw [hnew] at new
              simp at new
      | false =>
          rw [if_neg (by simp)]
          split
          · rename_i e w' hfirst
            refine ⟨fun h => by simp at h, fun h => ?_⟩
            cases h.2 with
            | cons _ ext _ =>
                have hboth := (extract_eq hfirst).symm.trans ext
                simp at hboth
          · rename_i i w' hfirst
            rw [ih]
            refine ⟨fun h => ⟨h.1, .cons hnew (extract_eq hfirst) h.2⟩, fun h => ⟨h.1, ?_⟩⟩
            cases h.2 with
            | cons _ ext rest =>
                obtain rfl := Except.ok.inj ((extract_eq hfirst).symm.trans ext)
                exact rest

/-- Taking gestures in adds them up. -/
theorem Taken.entries_eq {policy : Policy} {items : List (Text × Gesture)} {s s' : Staged β}
    (h : Taken policy s items s') :
    s'.entries = items.foldl (fun es p => Entries.add p.1 p.2 es) s.entries := by
  induction h with
  | nil => rfl
  | cons _ _ _ ih => rw [ih, List.foldl_cons]

/-- A file whose contents a library can take under a policy. -/
inductive Loads (policy : Policy) (bytes : Bytes) : Staged β → Prop where
  /-- Nothing is taken from a file of another version. -/
  | unknown {v : Int} (read : StoreFile.read bytes = .ok (.unknown v)) :
      Loads policy bytes ⟨[], Learner.empty⟩
  /-- From a file of the known version everything is. -/
  | known {items : List (Text × Gesture)} {rest : Bytes} {s : Staged β}
      (read : StoreFile.read bytes = .ok (.known ⟨items, none, rest⟩))
      (taken : Taken policy ⟨[], Learner.empty⟩ items s) : Loads policy bytes s

/-- What is taken from a file is what the file says. -/
theorem Loads.parse_eq {policy : Policy} {bytes : Bytes} {s : Staged β}
    (h : Loads policy bytes s) : StoreFile.parse bytes = .ok s.entries := by
  cases h with
  | unknown read => rw [StoreFile.parse, read]
  | known read taken =>
      rw [StoreFile.parse, read, taken.entries_eq]
      rfl

/-- **Loading bytes takes what can be taken from them, or leaves everything as it is.** -/
theorem loadBytes_cases (l : Library β) (bytes : Bytes) :
    ((l.loadBytes bytes).1 = false ∧ (l.loadBytes bytes).2.2.state = l.state ∧
        ∀ s : Staged β, ¬ Loads l.policy bytes s) ∨
      ∃ s, Loads l.policy bytes s ∧ (l.loadBytes bytes).1 = true ∧
        (l.loadBytes bytes).2.2.state
          = { l.state with entries := s.entries, learner := s.learner, dirty := false } := by
  unfold loadBytes
  dsimp only
  split
  · rename_i e hread
    refine Or.inl ⟨rfl, rfl, fun s hs => ?_⟩
    cases hs with
    | unknown read => simp [read] at hread
    | known read _ => simp [read] at hread
  · rename_i contents hread
    cases contents with
    | unknown v => exact Or.inr ⟨⟨[], Learner.empty⟩, .unknown hread, rfl, rfl⟩
    | known run =>
        simp only [staged]
        split
        · rename_i e w' htake
          refine Or.inl ⟨rfl, rfl, fun s hs => ?_⟩
          cases hs with
          | unknown read => simp [read] at hread
          | known read taken =>
              rw [hread] at read
              obtain rfl := StoreFile.Contents.known.inj (Except.ok.inj read)
              have hboth := (takeIn_eq_ok_iff (w := l.watch.enter.2)).mpr ⟨rfl, taken⟩
              rw [htake] at hboth
              simp at hboth
        · rename_i s w' htake
          obtain ⟨hfault, htaken⟩ := takeIn_eq_ok_iff.mp (congrArg Prod.fst htake)
          have hknown : StoreFile.read bytes = .ok (.known ⟨run.items, none, run.rest⟩) := by
            rw [hread, ← hfault]
          exact Or.inr ⟨s, .known hknown htaken, rfl, rfl⟩

end Library

/-! ### The list of what can happen -/

section
variable [Scalar α] [Stored β α]

/--
What an operation can come to: the answer, and what the library and the disk are then.

Where an operation is refused, has nothing to do or only asks, both are as before.
-/
inductive Does (w : Workspace β) :
    Operation → Except Fault (Answer α) → Library.State β → Disk → Prop where
  /-- Any operation but saving may be refused. -/
  | refused {op : Operation} {e : Fault} (hop : op ≠ .save) :
      Does w op (.error e) w.library.state w.disk
  /-- A gesture without a name to speak of is ignored. -/
  | ignored {name : Value} {g : Gesture} (blank : ∀ t, name = .text t → t.isBlank = true) :
      Does w (.add name g) (.ok .done) w.library.state w.disk
  /-- A gesture is added. -/
  | added {t : Text} {g : Gesture} {f : Bytes} {i : Instance β} (named : t.isBlank = false)
      (writable : Writer.utf t = .ok f) (new : w.library.learner.contains g.id = false)
      (ext : Extracted w.library.policy (t, g) i) :
      Does w (.add (.text t) g) (.ok .done)
        { w.library.state with
          entries := w.library.entries.add t g
          learner := w.library.learner.add i
          dirty := true } w.disk
  /-- There is no such gesture to remove. -/
  | notRemoved {name : Value} {id : Int} :
      Does w (.remove name id) (.ok .done) w.library.state w.disk
  /-- A gesture is removed. -/
  | removed {t : Text} {id : Int} {gs : List Gesture}
      (found : w.library.entries.find? t = some gs)
      (stored : (gs.any fun g => g.id == id) = true) :
      Does w (.remove (.text t) id) (.ok .done)
        { w.library.state with
          entries := w.library.entries.replace t (gs.eraseP fun g => g.id == id)
          learner := w.library.learner.remove id
          dirty := true } w.disk
  /-- There is no such entry to remove. -/
  | notDropped {name : Value} : Does w (.removeEntry name) (.ok .done) w.library.state w.disk
  /-- An entry is removed. -/
  | dropped {t : Text} (found : w.library.entries.contains t = true) :
      Does w (.removeEntry (.text t)) (.ok .done)
        { w.library.state with
          entries := w.library.entries.erase t
          learner := w.library.learner.removeLabel (some t)
          dirty := true } w.disk
  /-- The names are ranked. -/
  | recognized {g : Gesture} {i : Instance β} {ps : List (Prediction α)}
      (ext : Instance.extract w.library.policy none g = .ok i)
      (ranked : w.library.learner.classify
        ⟨i.sequence, i.vector.map Stored.fetch, i.orientation⟩ = .ok ps) :
      Does w (.recognize g) (.ok (.predictions ps)) w.library.state w.disk
  /-- Every gesture is extracted again. -/
  | rebuilt {is : List (Instance β)}
      (ext : List.Forall₂ (Extracted w.library.policy) w.library.entries.pairs is) :
      Does w .rebuild (.ok .done)
        { w.library.state with learner := Learner.empty.addAll is } w.disk
  /-- The sequence policy is changed. -/
  | sequenceSet {s : Sequence} :
      Does w (.setSequence s) (.ok .done)
        { w.library.state with policy := { w.library.policy with sequence := s } } w.disk
  /-- The orientation policy is changed. -/
  | orientationSet {o : Option Orientation} :
      Does w (.setOrientation o) (.ok .done)
        { w.library.state with policy := { w.library.policy with orientation := o } } w.disk
  /-- There is nothing to save. -/
  | clean (hclean : w.library.dirty = false) :
      Does w .save (.ok (.flag true)) w.library.state w.disk
  /-- The library is saved. -/
  | saved {d : Disk} {left : Option Place} (hdirty : w.library.dirty = true)
      (replaced : w.disk.replace w.library.location (StoreFile.write w.library.entries).bytes
        (StoreFile.write w.library.entries).fault = (.ok (), left, d)) :
      Does w .save (.ok (.flag true)) { w.library.state with dirty := false } d
  /-- The library cannot be saved. -/
  | notSaved {d : Disk} {left : Option Place} {e : Fault} {outcome : Except Fault (Answer α)}
      (hdirty : w.library.dirty = true)
      (refused : w.disk.replace w.library.location (StoreFile.write w.library.entries).bytes
        (StoreFile.write w.library.entries).fault = (.error e, left, d))
      (failed : outcome = .ok (.flag false) ∨ outcome = .error .tooDeep) :
      Does w .save outcome w.library.state d
  /-- There is no file to load, or none that can be taken. -/
  | notLoaded (untaken : ∀ bytes, w.disk.contents? w.library.location = .ok (some bytes) →
        ∀ s : Library.Staged β, ¬ Library.Loads w.library.policy bytes s) :
      Does w .load (.ok (.flag false)) w.library.state w.disk
  /-- The file is loaded. -/
  | loaded {bytes : Bytes} {s : Library.Staged β}
      (found : w.disk.contents? w.library.location = .ok (some bytes))
      (loads : Library.Loads w.library.policy bytes s) :
      Does w .load (.ok (.flag true))
        { w.library.state with entries := s.entries, learner := s.learner, dirty := false }
        w.disk

namespace Library

variable (w : Workspace β)

private theorem does_add (name : Value) (g : Gesture) :
    Does w (.add name g) ((w.library.add name g).1.map fun _ => .done)
      (w.library.add name g).2.state w.disk := by
  have hother : ∀ v : Value, (∀ t, v ≠ .text t) →
      Does w (.add v g)
        ((if v.truthy then (.error .noSuchPart, w.library) else (.ok (), w.library)
          : Except Fault Unit × Library β).1.map fun _ => .done)
        (if v.truthy then (.error .noSuchPart, w.library) else (.ok (), w.library)
          : Except Fault Unit × Library β).2.state w.disk := by
    intro v hv
    by_cases htruthy : v.truthy = true
    · simp only [htruthy, if_true]
      exact .refused (by simp)
    · simp only [htruthy]
      exact .ignored fun t ht => absurd ht (hv t)
  cases name with
  | text t =>
      rw [add]
      by_cases hblank : t.isBlank = true
      · rw [if_pos hblank]
        refine .ignored fun u hu => ?_
        obtain rfl := Value.text.inj hu
        exact hblank
      · rw [if_neg hblank, addNamed]
        cases hname : checkName t with
        | error e => exact .refused (by simp)
        | ok u =>
            obtain ⟨f, hf⟩ := checkName_eq_ok_iff.mp hname
            dsimp only
            cases hnew : w.library.learner.contains g.id with
            | true => exact .refused (by simp)
            | false =>
                rw [if_neg (by simp)]
                split
                · exact .refused (by simp)
                · rename_i i watch hext
                  exact .added (by simpa using hblank) hf hnew (extract_eq hext)
  | null => exact hother _ (by simp)
  | bool b => exact hother _ (by simp)
  | int i => exact hother _ (by simp)
  | float x => exact hother _ (by simp)
  | moment m => exact hother _ (by simp)
  | list items => exact hother _ (by simp)
  | object fields => exact hother _ (by simp)

/-- A value that names something is a text. -/
private theorem nameOf_cases (v : Value) :
    (∃ e, nameOf v = .error e) ∨ nameOf v = .ok none ∨ ∃ t, v = .text t ∧ nameOf v = .ok (some t) := by
  cases v with
  | text t => exact Or.inr (Or.inr ⟨t, rfl, rfl⟩)
  | list items => exact Or.inl ⟨_, rfl⟩
  | object fields => exact Or.inl ⟨_, rfl⟩
  | null => exact Or.inr (Or.inl rfl)
  | bool b => exact Or.inr (Or.inl rfl)
  | int i => exact Or.inr (Or.inl rfl)
  | float x => exact Or.inr (Or.inl rfl)
  | moment m => exact Or.inr (Or.inl rfl)

private theorem does_remove (name : Value) (id : Int) :
    Does w (.remove name id) (w.change (α := α) (w.library.remove name id)).1.outcome
      (w.change (α := α) (w.library.remove name id)).2.library.state
      (w.change (α := α) (w.library.remove name id)).2.disk := by
  rcases nameOf_cases name with ⟨e, hname⟩ | hname | ⟨t, rfl, hname⟩
  · have hremove : w.library.remove name id = .error e := by rw [remove, hname]; rfl
    rw [hremove]
    exact .refused (by simp)
  · have hremove : w.library.remove name id = .ok w.library := by rw [remove, hname]; rfl
    rw [hremove]
    exact .notRemoved
  · have hremove : w.library.remove (.text t) id = .ok (w.library.removeNamed t id) := by
      rw [remove, hname]
      rfl
    rw [hremove, removeNamed]
    split
    · exact .notRemoved
    · rename_i gs hfind
      by_cases hstored : (gs.any fun g => g.id == id) = true
      · rw [if_pos hstored]
        exact .removed hfind hstored
      · rw [if_neg hstored]
        exact .notRemoved

private theorem does_removeEntry (name : Value) :
    Does w (.removeEntry name) (w.change (α := α) (w.library.removeEntry name)).1.outcome
      (w.change (α := α) (w.library.removeEntry name)).2.library.state
      (w.change (α := α) (w.library.removeEntry name)).2.disk := by
  rcases nameOf_cases name with ⟨e, hname⟩ | hname | ⟨t, rfl, hname⟩
  · have hremove : w.library.removeEntry name = .error e := by rw [removeEntry, hname]; rfl
    rw [hremove]
    exact .refused (by simp)
  · have hremove : w.library.removeEntry name = .ok w.library := by rw [removeEntry, hname]; rfl
    rw [hremove]
    exact .notDropped
  · have hremove : w.library.removeEntry (.text t) = .ok (w.library.removeEntryNamed t) := by
      rw [removeEntry, hname]
      rfl
    rw [hremove, removeEntryNamed]
    by_cases hfound : w.library.entries.contains t = true
    · rw [if_pos hfound]
      exact .dropped hfound
    · rw [if_neg hfound]
      exact .notDropped

private theorem does_recognize (g : Gesture) :
    Does w (.recognize g) ((w.library.recognize g).1.map .predictions)
      (w.library.recognize g).2.state w.disk := by
  unfold recognize
  split
  · exact .refused (by simp)
  · rename_i i watch hext
    have hranked := Watch.stage_fst watch classificationStage
      (w.library.learner.classify ⟨i.sequence, i.vector.map Stored.fetch, i.orientation⟩)
    dsimp only
    rw [hranked]
    cases hclassify : w.library.learner.classify
        ⟨i.sequence, i.vector.map Stored.fetch, i.orientation⟩ with
    | error e => exact .refused (by simp)
    | ok ps => exact .recognized (extract_eq hext) hclassify

private theorem does_rebuild :
    Does w .rebuild (w.library.rebuild.1.map fun _ => .done) w.library.rebuild.2.state w.disk := by
  unfold rebuild
  split
  · exact .refused (by simp)
  · rename_i is watch hall
    exact .rebuilt (extractAll_eq_ok_iff.mp (congrArg Prod.fst hall))

private theorem does_save :
    Does w .save ((w.library.save w.disk).1.map .flag) (w.library.save w.disk).2.2.1.state
      (w.library.save w.disk).2.2.2 := by
  unfold save
  by_cases hdirty : w.library.dirty = true
  · rw [if_neg (by simp [hdirty])]
    dsimp only
    split
    · rename_i hreplace
      exact .saved hdirty hreplace
    · rename_i hreplace
      exact .notSaved hdirty hreplace (Or.inr rfl)
    · rename_i hreplace
      exact .notSaved hdirty hreplace (Or.inl rfl)
  · have hclean : w.library.dirty = false := by simpa using hdirty
    rw [if_pos (by simp [hclean])]
    exact .clean hclean

private theorem does_load :
    Does w .load ((w.library.load w.disk).1.map .flag) (w.library.load w.disk).2.2.state
      w.disk := by
  unfold load
  cases hcontents : w.disk.contents? w.library.location with
  | error e => exact .refused (by simp)
  | ok found =>
      cases found with
      | none =>
          refine .notLoaded fun bytes hbytes => ?_
          rw [hcontents] at hbytes
          simp at hbytes
      | some bytes =>
          dsimp only
          rcases loadBytes_cases w.library bytes with ⟨hanswer, hstate, hnot⟩ | ⟨s, hs, hanswer, hstate⟩
          · rw [hanswer, hstate]
            refine .notLoaded fun bytes' hbytes => ?_
            rw [hcontents] at hbytes
            obtain rfl := Option.some.inj (Except.ok.inj hbytes)
            exact hnot
          · rw [hanswer, hstate]
            exact .loaded hcontents hs

end Library

/-- **An operation does one of the things on the list.** -/
theorem Workspace.perform_does (w : Workspace β) (op : Operation) :
    Does w op (w.perform op).1.outcome (w.perform op).2.library.state (w.perform op).2.disk := by
  cases op with
  | add name g => exact Library.does_add w name g
  | remove name id => exact Library.does_remove w name id
  | removeEntry name => exact Library.does_removeEntry w name
  | recognize g => exact Library.does_recognize w g
  | rebuild => exact Library.does_rebuild w
  | setSequence s => exact .sequenceSet
  | setOrientation o => exact .orientationSet
  | save => exact Library.does_save w
  | load => exact Library.does_load w

end

end GestureStore
