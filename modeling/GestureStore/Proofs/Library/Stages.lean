/-
What was counted is what was done.

A library that times its stages counts how often each was completed.  Which stages an
operation completes can be told without a clock, from what the library and the disk were
before it and from its answer.  Loading and saving count where they succeed, saving only
where there is something to save, and ranking where there is an answer.  Extracting counts
for every gesture that was extracted, also where a later one, or something else, made the
operation fail: an operation goes through gestures (`offered`) up to the first that cannot
be extracted.

`Watch.Counts` says what has been added to the counts from one moment to another.  These
additions add up, over the stages of an operation and then over the operations of a run.
-/
import GestureStore.Proofs.Library.Runs
import GestureStore.Proofs.Timing.Session
import Mathlib.Algebra.Group.Pi.Lemmas

namespace GestureStore

/-! ### Counts -/

namespace Watch

/-- Stages are timed. -/
def On (w : Watch Float) : Prop := ∃ p, w.profiler = some p ∧ p.enabled = true

/-- How often a stage was completed. -/
def calls (w : Watch Float) (stage : Text) : Nat :=
  ((w.profiler.bind fun p => p.timing? stage).map Timing.calls).getD 0

/-- Stages are still timed, and have been completed so many times more. -/
structure Counts (w : Watch Float) (more : Text → Nat) (w' : Watch Float) : Prop where
  /-- Stages are still timed. -/
  on : w'.On
  /-- They were completed so many times more. -/
  calls : ∀ stage, w'.calls stage = w.calls stage + more stage

theorem Counts.trans {w w' w'' : Watch Float} {f g : Text → Nat} (h : w.Counts f w')
    (h' : w'.Counts g w'') : w.Counts (f + g) w'' := by
  refine ⟨h'.on, fun stage => ?_⟩
  rw [h'.calls, h.calls, Pi.add_apply, Nat.add_assoc]

/-- Beginning a stage notes the time, and nothing is counted yet. -/
theorem counts_enter {w : Watch Float} (h : w.On) :
    ∃ now w', w.enter = (some now, w') ∧ w.Counts 0 w' := by
  obtain ⟨p, hp, hon⟩ := h
  refine ⟨w.clock.look.1, { w with clock := w.clock.look.2 }, ?_, ⟨p, hp, hon⟩, fun _ => rfl⟩
  simp only [enter, hp, hon, if_true, Profiler.noted]

/-- Completing a stage that was noted counts once. -/
theorem counts_leave {w : Watch Float} (h : w.On) (stage : Text) (entered : Int) :
    w.Counts (Pi.single stage 1) (w.leave stage (some entered)) := by
  obtain ⟨p, hp, hon⟩ := h
  have hleave : w.leave stage (some entered)
      = ⟨some (p.complete stage (some entered) w.clock.look.1), w.clock.look.2⟩ := by
    simp only [leave, hp]
  rw [hleave]
  refine ⟨⟨_, rfl, hon⟩, fun name => ?_⟩
  simp only [calls, hp, Option.bind_some]
  rw [Profiler.timing?_complete]
  by_cases hname : stage = name
  · subst hname
    rw [if_pos rfl, Pi.single_eq_same]
    cases p.timing? stage <;> rfl
  · rw [if_neg hname, Pi.single_eq_of_ne (Ne.symm hname)]
    rfl

/-- **A stage counts if what is computed in it does not fail.** -/
theorem counts_stage {w : Watch Float} (h : w.On) (stage : Text) (x : Except ε α) :
    w.Counts (Pi.single stage (if x.isOk then 1 else 0)) (w.stage stage fun w => (x, w)).2 := by
  obtain ⟨now, w', henter, hentered⟩ := counts_enter h
  rw [Watch.stage, henter]
  cases x with
  | error e => simpa [Except.isOk, Except.toBool] using hentered
  | ok a =>
      have hleft := hentered.trans (counts_leave hentered.on stage now)
      rw [zero_add] at hleft
      exact hleft

end Watch

/-! ### Gestures in a row -/

section
variable (β) [Scalar α] [Stored β α]

/-- How many gestures, each with its name, can be extracted one after the other until one cannot be. -/
def Policy.extracted (policy : Policy) (items : List (Option Text × Gesture)) : Nat :=
  (items.takeWhile fun p =>
    (Instance.extract policy p.1 p.2 : Except Fault (Instance β)).isOk).length

end

/-- Gestures up to the first that has an identifier of one before, or of those seen already. -/
def unrepeated (seen : List Int) : List (Text × Gesture) → List (Text × Gesture)
  | [] => []
  | p :: rest => if p.2.id ∈ seen then [] else p :: unrepeated (p.2.id :: seen) rest

/-- A gesture as it is extracted for the entry it is in. -/
def named (p : Text × Gesture) : Option Text × Gesture := (some p.1, p.2)

namespace Library

variable [Scalar α] [Stored β α]

/-- What extracting one gesture comes to, and what it counts. -/
theorem extract_cases {w : Watch Float} (h : w.On) (policy : Policy) (label : Option Text)
    (g : Gesture) :
    (∃ e w', (extract policy label g w : Except Fault (Instance β) × _) = (.error e, w') ∧
        (Instance.extract policy label g : Except Fault (Instance β)) = .error e ∧
        w.Counts 0 w') ∨
      ∃ (i : Instance β) (w' : Watch Float), extract policy label g w = (.ok i, w') ∧
        Instance.extract policy label g = .ok i ∧ w.Counts (Pi.single extractionStage 1) w' := by
  have hcounts : w.Counts (Pi.single extractionStage
        (if (Instance.extract policy label g : Except Fault (Instance β)).isOk then 1 else 0))
      (extract policy label g w : Except Fault (Instance β) × _).2 :=
    Watch.counts_stage h extractionStage _
  have houtcome := extract_fst (β := β) policy label g w
  rcases hext : (extract policy label g w : Except Fault (Instance β) × _) with ⟨outcome, w'⟩
  rw [hext] at houtcome hcounts
  rw [← houtcome] at hcounts
  cases outcome with
  | error e =>
      refine Or.inl ⟨e, w', rfl, houtcome.symm, ?_⟩
      simpa [Except.isOk, Except.toBool] using hcounts
  | ok i =>
      refine Or.inr ⟨i, w', rfl, houtcome.symm, ?_⟩
      simpa [Except.isOk, Except.toBool] using hcounts

/-- The gestures in a file, up to where it cannot be read or an identifier is repeated. -/
def offeredBy (bytes : Bytes) : List (Text × Gesture) :=
  match StoreFile.read bytes with
  | .ok (.known run) => unrepeated [] run.items
  | _ => []

end Library

namespace Workspace

variable [Scalar α] [Stored β α]

/-- The gestures that an operation goes through, each as it is extracted. -/
def offered (w : Workspace β) : Operation → List (Option Text × Gesture)
  | .add (.text t) g =>
    if !t.isBlank && (Library.checkName t).isOk && !w.library.learner.contains g.id then
      [(some t, g)]
    else []
  | .recognize g => [(none, g)]
  | .rebuild => w.library.entries.pairs.map named
  | .load =>
    match w.disk.contents? w.library.location with
    | .ok (some bytes) => (Library.offeredBy bytes).map named
    | _ => []
  | _ => []

/-- How many gestures an operation extracts. -/
def extractions (w : Workspace β) (op : Operation) : Nat :=
  w.library.policy.extracted β (w.offered op)

/-- One for a ranking that is answered. -/
def rankings (w : Workspace β) (op : Operation) : Nat :=
  match op, (w.perform op).1.outcome with
  | .recognize _, .ok _ => 1
  | _, _ => 0

/-- One for saving what was changed. -/
def saves (w : Workspace β) (op : Operation) : Nat :=
  match op, (w.perform op).1.outcome with
  | .save, .ok (.flag true) => if w.library.dirty then 1 else 0
  | _, _ => 0

/-- One for loading what is in the file. -/
def loads (w : Workspace β) (op : Operation) : Nat :=
  match op, (w.perform op).1.outcome with
  | .load, .ok (.flag true) => 1
  | _, _ => 0

/-- The stages that an operation completes, and how often. -/
def stages (w : Workspace β) (op : Operation) : Text → Nat :=
  Pi.single extractionStage (w.extractions op) + Pi.single classificationStage (w.rankings op)
    + Pi.single saveStage (w.saves op) + Pi.single loadStage (w.loads op)

end Workspace

section
variable [Scalar α] [Stored β α]

end

end GestureStore
