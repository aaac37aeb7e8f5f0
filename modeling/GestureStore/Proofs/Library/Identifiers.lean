/-
Where identifiers come from.

A process has gestures from two sources.  Those that come without an identifier take the
next from the supply; the others bring one along, whoever makes, describes or stores
them, and the supply takes no notice of it.  So a fresh identifier is one that no
gesture has got from the supply (`Process.Kept`), and which one it is depends on nothing
but how many have.  Whether a gesture has brought the same one along is another matter;
if one has, and is stored, the fresh gesture cannot be added.
-/
import GestureStore.Geometry.Trace
import GestureStore.Proofs.Library.Loading

namespace GestureStore

/-! ### Processes -/

/-- A library at work in a process, and the gestures the process has. -/
structure Process (β : Type) where
  /-- The library and its surroundings. -/
  workspace : Workspace β
  /-- The identifiers for gestures that come without one. -/
  supply : Supply
  /-- The gestures that took an identifier from the supply, the last of them first. -/
  numbered : List Gesture
  /-- The gestures that brought one along. -/
  given : List Gesture

/-- The gesture that an operation is handed. -/
def Operation.gesture? : Operation → Option Gesture
  | .add _ g => some g
  | .recognize g => some g
  | _ => none

/-- The identifier that a value asks for, in the place of that of a gesture. -/
def Value.askedId (v : Value) : Value :=
  match v.fields with
  | .ok fields => (Value.lookup Gesture.idField fields).getD .null
  | .error _ => .null

/-- The gestures that an operation brings into being. -/
def Workspace.loaded [Scalar α] [Stored β α] (w : Workspace β) (op : Operation) : List Gesture :=
  match op, (w.perform op).1.outcome with
  | .load, .ok (.flag true) => (w.perform op).2.library.entries.gestures
  | _, _ => []

namespace Process

/-- The process has the gesture. -/
def Has (p : Process β) (g : Gesture) : Prop := g ∈ p.numbered ∨ g ∈ p.given

/-- The process after an attempt at a gesture for which an identifier was asked, if not null. -/
def receive (p : Process β) (id : Value) : Except Fault Gesture × Supply → Process β
  | (.error _, supply) => { p with supply }
  | (.ok g, supply) =>
    match id with
    | .null => { p with supply, numbered := g :: p.numbered }
    | _ => { p with supply, given := g :: p.given }

/-- What can happen in a process. -/
inductive Step [Scalar α] [Stored β α] (p : Process β) : Process β → Prop where
  /-- A gesture is made of strokes, with or without an identifier. -/
  | make (strokes : List Stroke) (id : Value) :
      Step p (p.receive id (Gesture.withId strokes id p.supply))
  /-- A gesture is made from a value that describes it. -/
  | describe (v : Value) : Step p (p.receive v.askedId (Gesture.ofValue v p.supply))
  /-- A gesture is read. -/
  | decode {b rest : Bytes} {g : Gesture} (read : Gesture.read b = (.ok g, rest)) :
      Step p { p with given := g :: p.given }
  /-- The library is put to work, on gestures that there are. -/
  | operate (op : Operation) (known : ∀ g, op.gesture? = some g → p.Has g) :
      Step p { p with
        workspace := p.workspace.after (.operate op)
        given := p.workspace.loaded op ++ p.given }
  /-- The disk is changed from outside. -/
  | outside (d : Disk) : Step p { p with workspace := p.workspace.after (.outside d) }
  /-- Another library is put in the place of the one at work. -/
  | turn (location : Location) (policy : Policy) (profiler : Option (Profiler Float)) :
      Step p { p with workspace := .start location policy profiler p.workspace.disk }

/-- The processes that there can be, of those that begin with a supply and without gestures. -/
inductive Reachable [Scalar α] [Stored β α] (seed : Supply) : Process β → Prop where
  | start (location : Location) (policy : Policy) (profiler : Option (Profiler Float))
      (disk : Disk) : Reachable seed ⟨.start location policy profiler disk, seed, [], []⟩
  | step {p p' : Process β} (h : Reachable seed p) (hstep : p.Step p') : Reachable seed p'

end Process

/-! ### Attempts at a gesture -/

/-- A value that describes no gesture takes no identifier, and others do as they ask. -/
theorem Gesture.ofValue_cases (v : Value) (s : Supply) :
    (∃ e, ofValue v s = (.error e, s)) ∨ ∃ strokes, ofValue v s = withId strokes v.askedId s := by
  unfold ofValue Value.askedId
  cases v.fields with
  | error e => exact Or.inl ⟨e, rfl⟩
  | ok fields =>
      dsimp only
      cases strokesOfFields fields with
      | error e => exact Or.inl ⟨e, rfl⟩
      | ok strokes => exact Or.inr ⟨strokes, rfl⟩

namespace Process

/-- The process with a gesture that took the next identifier. -/
def number (p : Process β) (strokes : List Stroke) : Process β :=
  { p with
    supply := ⟨p.supply.next + 1⟩
    numbered := ⟨p.supply.next, strokes⟩ :: p.numbered }

/-- The process with a gesture that brought an identifier along. -/
def give (p : Process β) (g : Gesture) : Process β := { p with given := g :: p.given }

/-- What an attempt at a gesture comes to. -/
inductive Attempt (p : Process β) : Process β → Prop where
  /-- There is no gesture, and no identifier is taken. -/
  | failed : Attempt p p
  /-- There is one more that took an identifier. -/
  | number (strokes : List Stroke) : Attempt p (p.number strokes)
  /-- There is one more that brought one along. -/
  | give (g : Gesture) : Attempt p (p.give g)

theorem attempt_withId (p : Process β) (strokes : List Stroke) (id : Value) :
    p.Attempt (p.receive id (Gesture.withId strokes id p.supply)) := by
  cases id with
  | null => exact .number strokes
  | _ =>
      unfold Gesture.withId
      dsimp only
      cases Value.toInt _ with
      | error e => exact .failed
      | ok i => exact .give _

theorem attempt_ofValue (p : Process β) (v : Value) :
    p.Attempt (p.receive v.askedId (Gesture.ofValue v p.supply)) := by
  rcases Gesture.ofValue_cases v p.supply with ⟨e, he⟩ | ⟨strokes, hstrokes⟩
  · rw [he]
    exact .failed
  · rw [hstrokes]
    exact p.attempt_withId strokes v.askedId

end Process

/-! ### What is kept -/

section
variable [Scalar α] [Stored β α]

/-- Gestures that are stored after an operation were stored before, handed to it or loaded. -/
theorem Does.gestures_subset {w : Workspace β} {op : Operation}
    {outcome : Except Fault (Answer α)} {st : Library.State β} {d : Disk}
    (hdoes : Does w op outcome st d) {since : Int → Policy}
    (h : InStep since w.library.entries w.library.learner) {g : Gesture}
    (hg : g ∈ st.entries.gestures) :
    g ∈ w.library.entries.gestures ∨ op.gesture? = some g ∨
      (op = .load ∧ outcome = .ok (.flag true)) := by
  have hpairs : ∀ es : Entries, (∀ p ∈ es.pairs, p ∈ w.library.entries.pairs) →
      g ∈ es.gestures → g ∈ w.library.entries.gestures := by
    intro es hes hmem
    obtain ⟨p, hp, rfl⟩ := Entries.mem_gestures.mp hmem
    exact Entries.mem_gestures_of_pair (hes p hp)
  cases hdoes with
  | added =>
      obtain ⟨p, hp, rfl⟩ := Entries.mem_gestures.mp hg
      rcases Entries.mem_pairs_add.mp hp with rfl | hp
      · exact Or.inr (Or.inl rfl)
      · exact Or.inl (Entries.mem_gestures_of_pair hp)
  | removed found stored =>
      obtain ⟨-, before, removed, after, -, hbefore, hafter⟩ := h.tidy.eraseP found stored
      refine Or.inl (hpairs _ (fun p hp => ?_) hg)
      rw [hafter] at hp
      rw [hbefore]
      simp only [List.mem_append, List.mem_cons] at hp ⊢
      exact hp.imp_right Or.inr
  | dropped found =>
      refine Or.inl (hpairs _ (fun p hp => ?_) hg)
      rw [Entries.erase_pairs] at hp
      exact (List.mem_filter.mp hp).1
  | loaded _ _ => exact Or.inr (Or.inr ⟨rfl, rfl⟩)
  | notSaved _ _ _ => exact Or.inl hg
  | _ => exact Or.inl hg

namespace Process

/-- What holds of a process that began with a supply. -/
structure Kept (seed : Supply) (p : Process β) : Prop where
  /-- The supply counts the gestures that have taken an identifier. -/
  next : p.supply.next = seed.next + p.numbered.length
  /-- None of those identifiers is left to be taken. -/
  taken : ∀ g ∈ p.numbered, g.id < p.supply.next
  /-- The library stores gestures that there are. -/
  stored : ∀ g ∈ p.workspace.library.entries.gestures, p.Has g
  /-- Its entries and its learner are in step. -/
  inStep : ∃ since, InStep since p.workspace.library.entries p.workspace.library.learner

variable {seed : Supply} {p p' : Process β}

theorem Attempt.kept (hattempt : p.Attempt p') (h : Kept seed p) : Kept seed p' := by
  obtain ⟨hnext, htaken, hstored, hinStep⟩ := h
  cases hattempt with
  | failed => exact ⟨hnext, htaken, hstored, hinStep⟩
  | number strokes =>
      refine ⟨?_, ?_, fun g hg => (hstored g hg).imp_left (List.mem_cons_of_mem _), hinStep⟩
      · show p.supply.next + 1 = seed.next + (p.numbered.length + 1 : Nat)
        omega
      · show ∀ g ∈ (⟨p.supply.next, strokes⟩ : Gesture) :: p.numbered, g.id < p.supply.next + 1
        rw [List.forall_mem_cons]
        exact ⟨Int.lt_succ _, fun g hg => Int.lt_add_one_of_le (htaken g hg).le⟩
  | give g =>
      refine ⟨hnext, htaken, fun m hm => ?_, hinStep⟩
      exact (hstored m hm).imp_right (List.mem_cons_of_mem _)

theorem kept_start (supply : Supply) (location : Location) (policy : Policy)
    (profiler : Option (Profiler Float)) (disk : Disk) :
    Kept supply (⟨.start location policy profiler disk, supply, [], []⟩ : Process β) :=
  ⟨by simp, by simp, fun _ hg => absurd hg List.not_mem_nil, fun _ => policy, inStep_empty _⟩

/-- **Whatever a process does, the supply is ahead of what it gave.** -/
theorem Step.kept (hstep : p.Step p') (h : Kept seed p) : Kept seed p' := by
  cases hstep with
  | make strokes id => exact (p.attempt_withId strokes id).kept h
  | describe v => exact (p.attempt_ofValue v).kept h
  | decode _ => exact (Attempt.give _).kept h
  | operate op known =>
      obtain ⟨hnext, htaken, hstored, since, hinStep⟩ := h
      have hdoes := p.workspace.perform_does op
      refine ⟨hnext, htaken, fun m hm => ?_, _, hdoes.inStep hinStep⟩
      rcases hdoes.gestures_subset hinStep hm with hold | hhanded | ⟨rfl, houtcome⟩
      · exact (hstored m hold).imp_right (List.mem_append_right _)
      · exact (known m hhanded).imp_right (List.mem_append_right _)
      · have hloaded : p.workspace.loaded .load
            = (p.workspace.perform .load).2.library.entries.gestures := by
          unfold Workspace.loaded
          rw [houtcome]
        refine Or.inr (List.mem_append_left _ ?_)
        rw [hloaded]
        exact hm
  | outside d => exact ⟨h.next, h.taken, h.stored, h.inStep⟩
  | turn location policy profiler =>
      exact ⟨h.next, h.taken, fun _ hg => absurd hg List.not_mem_nil, fun _ => policy,
        inStep_empty _⟩

theorem Reachable.kept (h : Reachable seed p) : Kept seed p := by
  induction h with
  | start location policy profiler disk => exact kept_start seed location policy profiler disk
  | step _ hstep ih => exact hstep.kept ih

omit [Scalar α] [Stored β α] in
theorem Attempt.eq_number (hattempt : p.Attempt p') {g : Gesture}
    (hnew : p'.numbered = g :: p.numbered) :
    g.id = p.supply.next ∧ p'.workspace = p.workspace := by
  cases hattempt with
  | number strokes =>
      obtain ⟨rfl, -⟩ := List.cons.inj hnew
      exact ⟨rfl, rfl⟩
  | _ => exact absurd hnew.symm (List.cons_ne_self _ _)

/-- A step that gives a gesture an identifier gives it the next, and leaves the library. -/
theorem Step.eq_number (hstep : p.Step p') {g : Gesture} (hnew : p'.numbered = g :: p.numbered) :
    g.id = p.supply.next ∧ p'.workspace = p.workspace := by
  cases hstep with
  | make strokes id => exact (p.attempt_withId strokes id).eq_number hnew
  | describe v => exact (p.attempt_ofValue v).eq_number hnew
  | _ => exact absurd hnew.symm (List.cons_ne_self _ _)

end Process

/-! ### Adding what is fresh -/

/-- Adding a gesture that can be stored fails exactly if its identifier is stored. -/
theorem Workspace.perform_add {w : Workspace β} {t : Text} {g : Gesture}
    (named : t.isBlank = false) (writable : ∃ f, Writer.utf t = .ok f)
    (ext : ∃ i : Instance β, Instance.extract w.library.policy (some t) g = .ok i) :
    (w.perform (.add (.text t) g)).1.outcome
      = if w.library.learner.contains g.id then .error (.input (.alreadyStored g.id))
        else .ok .done := by
  obtain ⟨i, hi⟩ := ext
  have houtcome : (w.perform (.add (.text t) g)).1.outcome
      = (w.library.add (.text t) g).1.map fun _ => .done := rfl
  rw [houtcome, Library.add, if_neg (by simp [named]), Library.addNamed,
    Library.checkName_eq_ok_iff.mpr writable]
  dsimp only
  split
  · rfl
  · split
    · rename_i e watch hext
      have hboth := (Library.extract_eq hext).symm.trans hi
      cases hboth
    · rfl

theorem InStep.contains_iff {since : Int → Policy} {es : Entries} {l : Learner β}
    (h : InStep since es l) {id : Int} :
    l.contains id = true ↔ ∃ g ∈ es.gestures, g.id = id := by
  refine ⟨fun hcontains => ?_, fun hstored => ?_⟩
  · obtain ⟨i, hi, hid⟩ := List.any_eq_true.mp hcontains
    obtain ⟨p, hp, hext⟩ := h.owned i hi
    exact ⟨p.2, Entries.mem_gestures_of_pair hp, hext.id_eq.symm.trans (by simpa using hid)⟩
  · obtain ⟨g, hg, rfl⟩ := hstored
    obtain ⟨p, hp, rfl⟩ := Entries.mem_gestures.mp hg
    obtain ⟨i, hi, hext⟩ := h.learned p hp
    exact List.any_eq_true.mpr ⟨i, hi, by simp [hext.id_eq]⟩

/--
**A fresh identifier is new, unless a gesture has brought it along.**

In a process let a step give a gesture an identifier.  Which one that is depends on how
many gestures have got one, and on nothing else; none of them has got the same.  So if
any gesture has the same identifier, one does that brought it along.  Adding the fresh
gesture under a name that can be written, as long as it can be extracted, fails exactly
if a gesture with its identifier is stored, and for that reason; it does not fail if no
gesture has brought the identifier along.
-/
theorem fresh_identifier_is_new_unless_given {seed : Supply} {p p' : Process β}
    (hp : Process.Reachable seed p) (hstep : p.Step p') {g : Gesture}
    (hnew : p'.numbered = g :: p.numbered) :
    g.id = seed.next + p.numbered.length ∧
      (∀ m ∈ p.numbered, m.id ≠ g.id) ∧
      ((∃ m, p.Has m ∧ m.id = g.id) ↔ ∃ m ∈ p.given, m.id = g.id) ∧
      ∀ t : Text, t.isBlank = false → (∃ f, Writer.utf t = .ok f) →
        (∃ i : Instance β,
          Instance.extract p'.workspace.library.policy (some t) g = .ok i) →
        ((p'.workspace.perform (.add (.text t) g)).1.outcome
            = .error (.input (.alreadyStored g.id)) ↔
          ∃ m ∈ p'.workspace.library.entries.gestures, m.id = g.id) ∧
        ((p'.workspace.perform (.add (.text t) g)).1.outcome = .ok .done ↔
          ¬ ∃ m ∈ p'.workspace.library.entries.gestures, m.id = g.id) ∧
        ((∀ m ∈ p.given, m.id ≠ g.id) →
          (p'.workspace.perform (.add (.text t) g)).1.outcome = .ok .done) := by
  have hkept := hp.kept
  obtain ⟨hid, hworkspace⟩ := hstep.eq_number hnew
  have hbelow : ∀ m ∈ p.numbered, m.id ≠ g.id := fun m hm => by
    rw [hid]
    exact (hkept.taken m hm).ne
  have hgiven : (∃ m, p.Has m ∧ m.id = g.id) → ∃ m ∈ p.given, m.id = g.id := by
    rintro ⟨m, hm | hm, hsame⟩
    · exact absurd hsame (hbelow m hm)
    · exact ⟨m, hm, hsame⟩
  refine ⟨by rw [hid, hkept.next], hbelow,
    ⟨hgiven, fun ⟨m, hm, hsame⟩ => ⟨m, Or.inr hm, hsame⟩⟩, fun t named writable ext => ?_⟩
  rw [hworkspace] at ext ⊢
  obtain ⟨since, hinStep⟩ := hkept.inStep
  rw [Workspace.perform_add named writable ext, ← hinStep.contains_iff]
  refine ⟨?_, ?_, fun hnone => ?_⟩
  · split <;> simp_all
  · split <;> simp_all
  · have hnot : ¬ p.workspace.library.learner.contains g.id = true := by
      rw [hinStep.contains_iff]
      rintro ⟨m, hm, hsame⟩
      obtain ⟨m', hm', hsame'⟩ := hgiven ⟨m, hkept.stored m hm, hsame⟩
      exact hnone m' hm' hsame'
    rw [if_neg hnot]

end

/-- A fresh dot is added, although a dot has brought along an identifier. -/
theorem fresh_dot_is_added :
    let p : Process Single :=
      Process.give ⟨.start ⟨1, [Text.of "s"]⟩ ⟨.invariant, none⟩ none .blank, ⟨1000⟩, [], []⟩ (.dot 5)
    let p' := p.number (Gesture.dot 1000).strokes
    Process.Reachable ⟨1000⟩ p ∧ p.Step p' ∧ p'.numbered = [.dot 1000] ∧
      (p'.workspace.perform (.add (.text (Text.of "a")) (.dot 1000))).1.outcome = .ok .done := by
  intro p p'
  have hp : Process.Reachable ⟨1000⟩ p :=
    .step (.start ⟨1, [Text.of "s"]⟩ ⟨.invariant, none⟩ none .blank)
      (.make (Gesture.dot 5).strokes (.int 5))
  have hstep : p.Step p' := .make (Gesture.dot 1000).strokes .null
  obtain ⟨-, -, -, hadd⟩ :=
    fresh_identifier_is_new_unless_given hp hstep (g := .dot 1000) rfl
  obtain ⟨-, -, hdone⟩ := hadd (Text.of "a") (by decide) ⟨[0, 1, 97], rfl⟩ ⟨_, rfl⟩
  refine ⟨hp, hstep, rfl, hdone fun m hm => ?_⟩
  obtain rfl := List.mem_singleton.mp hm
  decide

/-- A loaded dot has the identifier that the next one gets, which then cannot be added. -/
theorem loaded_identifier_is_given_again :
    let w : Workspace Single := .start ⟨1, [Text.of "s"]⟩ ⟨.invariant, none⟩ none
      (.holding (Text.of "s") (StoreFile.write [(Text.of "a", [.dot 1000])]).bytes)
    let p : Process Single := ⟨w.after (.operate .load), ⟨1000⟩, [], [.dot 1000]⟩
    let p' := p.number (Gesture.dot 1000).strokes
    Process.Reachable ⟨1000⟩ p ∧ p.Step p' ∧ p'.numbered = [.dot 1000] ∧
      (∃ m, p.Has m ∧ m.id = 1000) ∧
      (p'.workspace.perform (.add (.text (Text.of "b")) (.dot 1000))).1.outcome
        = .error (.input (.alreadyStored 1000)) := by
  intro w p p'
  have hadmitted : Entries.Admitted w.library.policy [(Text.of "a", [.dot 1000])] :=
    ⟨by decide, by decide, fun _ => by decide⟩
  have hlayout : StoreFile.Layout [(Text.of "a", [.dot 1000])]
      (StoreFile.write [(Text.of "a", [.dot 1000])]).bytes := StoreFile.writes_parts_iff.mp rfl
  have hfile : w.disk.contents? w.library.location
      = .ok (some ((StoreFile.write [(Text.of "a", [.dot 1000])]).bytes ++ [])) := by
    rw [List.append_nil]
    exact Disk.contents?_holding _
  obtain ⟨notices, l, hload, hentries, -⟩ := Library.load_layout hlayout hadmitted hfile
  obtain ⟨houtcome, hlibrary⟩ := Workspace.perform_load hload
  have hloaded : w.loaded .load = [.dot 1000] := by
    unfold Workspace.loaded
    rw [houtcome]
    dsimp only
    rw [hlibrary, hentries]
    rfl
  have hstep := Process.Step.operate (p := ⟨w, ⟨1000⟩, [], []⟩) .load (by simp [Operation.gesture?])
  rw [hloaded] at hstep
  have hp : Process.Reachable ⟨1000⟩ p := .step (.start _ _ _ _) hstep
  obtain ⟨since, hinStep⟩ := hp.kept.inStep
  have hcontains : p.workspace.library.learner.contains (Gesture.dot 1000).id = true := by
    refine hinStep.contains_iff.mpr ⟨.dot 1000, ?_, rfl⟩
    show Gesture.dot 1000 ∈ (w.perform .load).2.library.entries.gestures
    rw [hlibrary, hentries]
    exact List.mem_singleton_self _
  refine ⟨hp, .make (Gesture.dot 1000).strokes .null, rfl,
    ⟨.dot 1000, Or.inr (List.mem_singleton_self _), rfl⟩, ?_⟩
  rw [show p'.workspace = p.workspace from rfl, Workspace.perform_add (by decide) ⟨[0, 1, 98], rfl⟩
    (Instance.exists_extract_iff.mpr ⟨List.cons_ne_nil _ _, fun _ => rfl⟩), if_pos hcontains]
  rfl

end GestureStore
