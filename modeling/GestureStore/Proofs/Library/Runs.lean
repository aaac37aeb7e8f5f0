/-
Runs, and what has happened in them.

A library is not alone with its disk: between two operations anybody may put any
bytes in the place of its file, or take it away.  A run is therefore a list of events,
some of them operations and some of them changes from outside.

What a run has come to is not all in the state it leads to.  Which policy was in
force when a gesture was last extracted (`Workspace.since`), and whether the library
has ever met its file (`Workspace.Met`), are read off the events.

The main statement is that entries and learner are in step after every run.
-/
import GestureStore.Proofs.Library.Operations

namespace GestureStore

/-- Something that happens. -/
inductive Event where
  /-- An operation is carried out. -/
  | operate (op : Operation)
  /-- The disk is changed from outside. -/
  | outside (d : Disk)

/-- Under which policy gestures were last extracted, after an operation that was carried out
under a policy and had an outcome. -/
def settle (policy : Policy) (since : Int → Policy) (op : Operation)
    (outcome : Except Fault (Answer α)) : Int → Policy :=
  match op, outcome with
  | .add (.text t) g, .ok _ => if t.isBlank then since else Function.update since g.id policy
  | .rebuild, .ok _ => fun _ => policy
  | .load, .ok (.flag true) => fun _ => policy
  | _, _ => since

/-- A refused operation extracts nothing anew. -/
theorem settle_error (policy : Policy) (since : Int → Policy) (op : Operation) (e : Fault) :
    settle (α := α) policy since op (.error e) = since := by
  cases op with
  | add name g => cases name <;> rfl
  | remove name id => rfl
  | removeEntry name => rfl
  | recognize g => rfl
  | rebuild => rfl
  | setSequence s => rfl
  | setOrientation o => rfl
  | save => rfl
  | load => rfl

namespace Workspace

variable [Scalar α] [Stored β α]

/-- A workspace with a library that holds nothing yet. -/
def start (location : Location) (policy : Policy) (profiler : Option (Profiler Float))
    (disk : Disk) : Workspace β :=
  ⟨Library.new location policy profiler, disk⟩

/-- The workspace after an event. -/
def after (w : Workspace β) : Event → Workspace β
  | .operate op => (w.perform op).2
  | .outside d => { w with disk := d }

/-- The workspace after events. -/
def play (w : Workspace β) (events : List Event) : Workspace β := events.foldl after w

/-- Under which policy the gestures were last extracted, after events. -/
def since (w : Workspace β) (policies : Int → Policy) : List Event → Int → Policy
  | [] => policies
  | .operate op :: rest =>
    (w.after (.operate op)).since
      (settle w.library.policy policies op (w.perform op).1.outcome) rest
  | .outside d :: rest => (w.after (.outside d)).since policies rest

/-- An operation that makes library and file agree: loading, or saving what was changed. -/
def Meets (w : Workspace β) (op : Operation) : Prop :=
  (w.perform op).1.outcome = .ok (.flag true) ∧
    (op = .load ∨ (op = .save ∧ w.library.dirty = true))

/-- Among events there was an operation that made library and file agree. -/
def Met (w : Workspace β) : List Event → Prop
  | [] => False
  | .operate op :: rest => w.Meets op ∨ (w.after (.operate op)).Met rest
  | .outside d :: rest => (w.after (.outside d)).Met rest

/-- Nobody else changes what the library finds as its file. -/
def Undisturbed (w : Workspace β) : List Event → Prop
  | [] => True
  | .operate op :: rest => (w.after (.operate op)).Undisturbed rest
  | .outside d :: rest =>
    d.contents? w.library.location = w.disk.contents? w.library.location ∧
      (w.after (.outside d)).Undisturbed rest

end Workspace

/-! ### Short runs -/

/-- A gesture of a single point. -/
def Gesture.dot (id : Int) : Gesture where
  id
  strokes := [⟨[⟨⟨0⟩, ⟨0⟩, 0⟩], by simp, by decide⟩]

/-- A gesture of two strokes that cross. -/
def Gesture.cross (id : Int) : Gesture where
  id
  strokes := [⟨[⟨⟨0⟩, ⟨0⟩, 0⟩, ⟨⟨0x3F800000⟩, ⟨0x3F800000⟩, 1⟩], by simp, by decide⟩,
    ⟨[⟨⟨0⟩, ⟨0x3F800000⟩, 2⟩, ⟨⟨0x3F800000⟩, ⟨0⟩, 3⟩], by simp, by decide⟩]

/-- A disk with nothing on it. -/
def Disk.blank : Disk := { nodes := [], here := .root, home := ⟨1, []⟩ }

/-- A library on a blank disk, after a gesture of a single point was added and was to be saved. -/
def Workspace.dotted (id : Int) : Workspace Single :=
  (start ⟨1, [Text.of "s"]⟩ ⟨.invariant, none⟩ none .blank : Workspace Single).play
    [.operate (.add (.text (Text.of "a")) (.dot id)), .operate .save]

/-- Gestures are added under two names in turns, and saved. -/
def Event.gathering : List Event :=
  [.operate (.add (.text (Text.of "b")) (.dot 3)), .operate (.add (.text (Text.of "a")) (.cross 1)),
    .operate (.add (.text (Text.of "b")) (.dot 2)), .operate .save]

/-- A library on a blank disk after that. -/
def Workspace.gathered : Workspace Single :=
  (start ⟨1, [Text.of "s"]⟩ ⟨.invariant, none⟩ none .blank : Workspace Single).play Event.gathering

/-- The entries that it has then. -/
def Entries.gathered : Entries := [(Text.of "b", [.dot 3, .dot 2]), (Text.of "a", [.cross 1])]

theorem Workspace.entries_gathered : gathered.library.entries = .gathered := rfl

/-! ### Entries and learner in step after every run -/

section
variable [Scalar α] [Stored β α]

theorem Library.Taken.inStep {policy : Policy} {items : List (Text × Gesture)}
    {s s' : Library.Staged β} (htaken : Library.Taken policy s items s')
    (hnames : ∀ p ∈ items, ∃ f, Writer.utf p.1 = .ok f)
    (h : InStep (fun _ => policy) s.entries s.learner) :
    InStep (fun _ => policy) s'.entries s'.learner := by
  induction htaken with
  | nil => exact h
  | @cons _ _ name g _ _ new ext _ ih =>
      obtain ⟨f, hf⟩ := hnames (name, g) (by simp)
      have hattached := h.attach new hf ext
      rw [Function.update_eq_self_iff.mpr rfl] at hattached
      exact ih (fun p hp => hnames p (by simp [hp])) hattached

/-- What is taken from a file is in step. -/
theorem Library.Loads.inStep {policy : Policy} {bytes : Bytes} {s : Library.Staged β}
    (h : Library.Loads policy bytes s) : InStep (fun _ => policy) s.entries s.learner := by
  cases h with
  | unknown _ => exact inStep_empty _
  | known read taken =>
      exact taken.inStep (StoreFile.writable_of_read read) (inStep_empty _)

/-- One operation keeps entries and learner in step. -/
theorem Does.inStep {w : Workspace β} {op : Operation} {outcome : Except Fault (Answer α)}
    {st : Library.State β} {d : Disk} (hdoes : Does w op outcome st d) {since : Int → Policy}
    (h : InStep since w.library.entries w.library.learner) :
    InStep (settle w.library.policy since op outcome) st.entries st.learner := by
  cases hdoes with
  | refused hop => rw [settle_error]; exact h
  | @ignored name g blank =>
      have hsettle : settle w.library.policy since (.add name g)
          (.ok .done : Except Fault (Answer α)) = since := by
        cases name with
        | text t => exact if_pos (blank t rfl)
        | null => rfl
        | bool b => rfl
        | int i => rfl
        | float x => rfl
        | moment m => rfl
        | list items => rfl
        | object fields => rfl
      rw [hsettle]
      exact h
  | @added t g f i named writable new ext =>
      have hsettle : settle w.library.policy since (.add (.text t) g)
          (.ok .done : Except Fault (Answer α))
            = Function.update since g.id w.library.policy := if_neg (by simp [named])
      rw [hsettle]
      exact h.attach new writable ext
  | notRemoved => exact h
  | removed found stored => exact h.detach found stored
  | notDropped => exact h
  | dropped found => exact h.drop _
  | recognized _ _ => exact h
  | rebuilt ext => exact h.renew ext
  | sequenceSet => exact h
  | orientationSet => exact h
  | clean _ => exact h
  | saved _ _ => exact h
  | notSaved _ _ failed =>
      rcases failed with rfl | rfl <;> exact h
  | notLoaded _ => exact h
  | loaded _ loads => exact loads.inStep

theorem Workspace.play_inStep_of (events : List Event) :
    ∀ (w : Workspace β) (policies : Int → Policy),
      InStep policies w.library.entries w.library.learner →
      InStep (w.since policies events) (w.play events).library.entries
        (w.play events).library.learner := by
  induction events with
  | nil => intro w policies h; exact h
  | cons e rest ih =>
      intro w policies h
      cases e with
      | operate op => exact ih _ _ ((w.perform_does op).inStep h)
      | outside d => exact ih _ _ h

variable (location : Location) (policy : Policy) (profiler : Option (Profiler Float))
  (disk : Disk)

/-- Entries and learner are in step after every run. -/
theorem Workspace.play_inStep (events : List Event) :
    InStep ((start location policy profiler disk : Workspace β).since (fun _ => policy) events)
      ((start location policy profiler disk : Workspace β).play events).library.entries
      ((start location policy profiler disk : Workspace β).play events).library.learner :=
  play_inStep_of events _ _ (inStep_empty _)

theorem InStep.find?_eq {since : Int → Policy} {es : Entries} {l : Learner β}
    (h : InStep since es l) {p : Text × Gesture} (hp : p ∈ es.pairs) :
    ∃ i, l.find? p.2.id = some i ∧ Extracted (since p.2.id) p i := by
  obtain ⟨i, hi, hext⟩ := h.learned p hp
  refine ⟨i, ?_, hext⟩
  have hsome : (l.find? p.2.id).isSome = true := by
    rw [Learner.find?, List.find?_isSome]
    exact ⟨i, hi, by simp [hext.id_eq]⟩
  obtain ⟨j, hj⟩ := Option.isSome_iff_exists.mp hsome
  have hjid : j.id = p.2.id := by simpa using List.find?_some hj
  have hij : j = i := by
    refine List.inj_on_of_nodup_map h.keyed (List.mem_of_find?_eq_some hj) hi ?_
    rw [hjid, hext.id_eq]
  rw [hj, hij]

/--
**After every run, entries and learner are in step.**

Identifiers are distinct across all entries.  The learner has an instance under the
identifier of each stored gesture and no other instance; it bears the name of the
gesture's entry and is what the gesture gives under the policy that was in force when
it was added, loaded or last rebuilt.  No entry is empty, every gesture has strokes,
and a single one where the order of its strokes counts.
-/
theorem entries_and_learner_in_step (events : List Event) :
    let start : Workspace β := Workspace.start location policy profiler disk
    let l := (start.play events).library
    let since := start.since (fun _ => policy) events
    (l.entries.gestures.map Gesture.id).Nodup ∧
      (l.learner.instances.map Instance.id).Nodup ∧
      (∀ i ∈ l.learner.instances, ∃ g ∈ l.entries.gestures, g.id = i.id) ∧
      (∀ e ∈ l.entries, ∀ g ∈ e.2, ∃ i, l.learner.find? g.id = some i ∧ i.label = some e.1 ∧
        Instance.extract (since g.id) (some e.1) g = .ok i ∧
        g.strokes ≠ [] ∧ (i.sequence = .sensitive → g.strokes.length = 1)) ∧
      (l.entries.map Prod.fst).Nodup ∧
      (∀ e ∈ l.entries, e.2 ≠ []) ∧
      l.size = l.learner.instances.length := by
  intro start l since
  have h : InStep since l.entries l.learner :=
    Workspace.play_inStep location policy profiler disk events
  refine ⟨?_, h.keyed, ?_, ?_, h.tidy.names, h.tidy.occupied, h.size_eq⟩
  · rw [Entries.gestures_eq, List.map_map]
    exact h.distinct
  · intro i hi
    obtain ⟨p, hp, hext⟩ := h.owned i hi
    rw [Entries.gestures_eq]
    exact ⟨p.2, List.mem_map_of_mem hp, hext.id_eq.symm⟩
  · intro e he g hg
    have hp : (e.1, g) ∈ l.entries.pairs := Entries.mem_pairs.mpr ⟨e, he, rfl, hg⟩
    obtain ⟨i, hfind, hext⟩ := h.find?_eq hp
    obtain ⟨-, -, hseq⟩ := Instance.extract_eq_ok hext
    obtain ⟨hstrokes, hsingle⟩ := Instance.exists_extract_iff.mp ⟨i, hext⟩
    exact ⟨i, hfind, hext.label_eq, hext, hstrokes, fun hi => hsingle (hseq.symm.trans hi)⟩

end

end GestureStore
