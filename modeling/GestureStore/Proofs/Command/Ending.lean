/-
What is known of a job by the way it ended.

A job that came to its end has come to the end of each of its steps, one after the
other, so what the last console is like can be read off the steps (`ends_bind_iff` and
what follows it).  A job that ended early did so in one of them, after the ones before it
had come to their end (`stops_bind_iff`).  No step ever exits with zero of its own accord,
so an exit with zero says that a command has done all that it was to do (`Earnest`).
-/
import GestureStore.Command.Run
import GestureStore.Proofs.Command.Console

namespace GestureStore
namespace Job

variable {job : Job α} {c c' : Console}

/-! ### Coming to the end -/

theorem ends_bind_iff {next : α → Job β} {b : β} :
    (job >>= next).Ends c b c' ↔ ∃ a c₁, job.Ends c a c₁ ∧ (next a).Ends c₁ b c' := by
  refine ⟨fun h => ?_, fun ⟨a, c₁, hjob, hnext⟩ => hjob.bind hnext⟩
  have hrun : ExceptT.bindCont next (job.run c).1 (job.run c).2 = (.ok b, c') := h
  cases hjob : job.run c with
  | mk outcome c₁ =>
      rw [hjob] at hrun
      cases outcome with
      | ok a => exact ⟨a, c₁, hjob, hrun⟩
      | error e => cases hrun

theorem ends_pure_iff {a b : α} : (pure a : Job α).Ends c b c' ↔ b = a ∧ c' = c := by
  refine ⟨fun h => ?_, fun ⟨hb, hc⟩ => by rw [hb, hc]; exact ends_pure a c⟩
  cases h
  exact ⟨rfl, rfl⟩

theorem ends_get_bind {next : Console → Job β} {b : β} :
    ((get : Job Console) >>= next).Ends c b c' ↔ (next c).Ends c b c' :=
  Iff.rfl

theorem ends_set_bind {s : Console} {next : PUnit → Job β} {b : β} :
    ((set s : Job PUnit) >>= next).Ends c b c' ↔ (next ⟨⟩).Ends s b c' :=
  Iff.rfl

theorem ends_disk_bind {next : Disk → Job β} {b : β} :
    (disk >>= next).Ends c b c' ↔ (next c.disk).Ends c b c' :=
  Iff.rfl

theorem ends_orEnd_bind {outcome : Except Fault α} {next : α → Job β} {b : β} :
    (orEnd outcome >>= next).Ends c b c' ↔ ∃ a, outcome = .ok a ∧ (next a).Ends c b c' := by
  cases outcome with
  | ok a =>
      refine ⟨fun h => ⟨a, rfl, h⟩, fun ⟨a', ha, h⟩ => ?_⟩
      cases ha
      exact h
  | error e =>
      refine ⟨fun h => ?_, fun ⟨a', ha, _⟩ => ?_⟩
      · cases h
      · cases ha

theorem not_ends_throw {e : Ending} {a : α} : ¬ (throw e : Job α).Ends c a c' := by
  intro h
  cases h

theorem not_ends_refuse {line : Text} {a : α} : ¬ (refuse line : Job α).Ends c a c' := by
  intro h
  cases h

theorem Ends.say_eq {line : Text} {u : Unit} (h : (say line).Ends c u c') :
    c' = { c with out := c.out ++ spoken line } := by
  unfold say at h
  dsimp only at h
  split at h
  · cases h
  · cases h
    rw [spoken, ← List.append_assoc]

/-- Nothing is different but the second stream. -/
structure Told (c c' : Console) : Prop where
  /-- The files are the same. -/
  disk : c'.disk = c.disk
  /-- So is the supply. -/
  supply : c'.supply = c.supply
  /-- So is the first stream. -/
  out : c'.out = c.out

theorem Told.trans {c₁ c₂ c₃ : Console} (h : Told c₁ c₂) (h' : Told c₂ c₃) : Told c₁ c₃ :=
  ⟨h'.disk.trans h.disk, h'.supply.trans h.supply, h'.out.trans h.out⟩

theorem Ends.warn_told {notices : List Notice} :
    ∀ {c : Console} {u : Unit}, (Command.warn notices).Ends c u c' → Told c c' := by
  induction notices with
  | nil =>
      intro c u h
      obtain ⟨-, rfl⟩ := ends_pure_iff.mp h
      exact ⟨rfl, rfl, rfl⟩
  | cons n rest ih =>
      intro c u h
      obtain ⟨_, c₁, hlog, hrest⟩ := ends_bind_iff.mp h
      have hfirst : Told c c₁ := by
        cases hlog
        exact ⟨rfl, rfl, rfl⟩
      exact hfirst.trans (ih hrest)

/-! ### Ending early -/

/-- A job that does not exit with zero before its end. -/
def Earnest (job : Job α) : Prop := ∀ c c', job.run c ≠ (.error (.exit 0), c')

theorem earnest_pure (a : α) : Earnest (pure a : Job α) := by
  intro c c' h
  cases h

theorem Earnest.bind {next : α → Job β} (h : Earnest job) (hnext : ∀ a, Earnest (next a)) :
    Earnest (job >>= next) := by
  intro c c' hrun
  have hcont : ExceptT.bindCont next (job.run c).1 (job.run c).2 = (.error (.exit 0), c') := hrun
  cases hjob : job.run c with
  | mk outcome c₁ =>
      rw [hjob] at hcont
      cases outcome with
      | ok a => exact hnext a c₁ c' hcont
      | error e =>
          cases hcont
          exact h c c₁ hjob

theorem earnest_get : Earnest (get : Job Console) := by
  intro c c' h
  cases h

theorem earnest_set (s : Console) : Earnest (set s : Job PUnit) := by
  intro c c' h
  cases h

theorem earnest_disk : Earnest disk := by
  intro c c' h
  cases h

theorem earnest_uncaught (e : Fault) : Earnest (throw (.uncaught e) : Job α) := by
  intro c c' h
  cases h

theorem earnest_refuse (line : Text) : Earnest (refuse line : Job α) := by
  intro c c' h
  cases h

theorem earnest_log (line : Text) : Earnest (log line) := by
  intro c c' h
  cases h

theorem earnest_orEnd (outcome : Except Fault α) : Earnest (orEnd outcome) := by
  cases outcome with
  | ok a => exact earnest_pure a
  | error e => exact earnest_uncaught e

theorem earnest_say (line : Text) : Earnest (say line) := by
  unfold say
  dsimp only
  split
  · exact earnest_uncaught _
  · intro c c' h
    cases h

theorem earnest_warn (notices : List Notice) : Earnest (Command.warn notices) := by
  induction notices with
  | nil => exact earnest_pure ()
  | cons n rest ih => exact (earnest_log _).bind fun _ => ih

/-- The job ends before its end, in this way and at this console. -/
def Stops (job : Job α) (c : Console) (e : Ending) (c' : Console) : Prop :=
  job.run c = (.error e, c')

/-- A job ends well or ends early, and it cannot do both. -/
theorem ends_or_stops (job : Job α) (c : Console) :
    (∃ a c', job.Ends c a c') ∨ ∃ e c', job.Stops c e c' := by
  cases hrun : job.run c with
  | mk outcome c' =>
      cases outcome with
      | ok a => exact .inl ⟨a, c', hrun⟩
      | error e => exact .inr ⟨e, c', hrun⟩

/-- One job after another is stopped in the first or, once that has ended, in the second. -/
theorem stops_bind_iff {next : α → Job β} {e : Ending} :
    (job >>= next).Stops c e c' ↔
      job.Stops c e c' ∨ ∃ a c₁, job.Ends c a c₁ ∧ (next a).Stops c₁ e c' := by
  have hrun : (job >>= next).Stops c e c' ↔
      ExceptT.bindCont next (job.run c).1 (job.run c).2 = (.error e, c') := Iff.rfl
  rw [hrun, Stops]
  cases hjob : job.run c with
  | mk outcome c₁ =>
      cases outcome with
      | ok a =>
          refine ⟨fun h => .inr ⟨a, c₁, hjob, h⟩, ?_⟩
          rintro (h | ⟨a', c₂, hends, hnext⟩)
          · cases h
          · cases hjob.symm.trans hends
            exact hnext
      | error e' =>
          refine ⟨fun h => by cases h; exact .inl rfl, ?_⟩
          rintro (h | ⟨a', c₂, hends, hnext⟩)
          · cases h
            rfl
          · cases hjob.symm.trans hends

theorem run_bind_of_ends {next : α → Job β} {a : α} (h : job.Ends c a c') :
    (job >>= next).run c = (next a).run c' := by
  show ExceptT.bindCont next (job.run c).1 (job.run c).2 = _
  rw [show job.run c = _ from h]
  rfl

theorem run_bind_of_stops {next : α → Job β} {e : Ending} (h : job.Stops c e c') :
    (job >>= next).run c = (.error e, c') :=
  stops_bind_iff.mpr (.inl h)

theorem not_stops_pure {a : α} {e : Ending} : ¬ (pure a : Job α).Stops c e c' := by
  intro h
  cases h

theorem Ends.not_stops {a : α} {c₁ : Console} {e : Ending} (h : job.Ends c a c₁) :
    ¬ job.Stops c e c' := by
  intro hstops
  cases h.symm.trans hstops

/-! ### Leaving the files alone -/

/-- However the job ends, the files are what they were. -/
def Untouched (job : Job α) : Prop := ∀ c, (job.run c).2.disk = c.disk

theorem Untouched.bind {next : α → Job β} (h : Untouched job) (hnext : ∀ a, Untouched (next a)) :
    Untouched (job >>= next) := by
  intro c
  show (ExceptT.bindCont next (job.run c).1 (job.run c).2).2.disk = c.disk
  rw [← h c]
  cases job.run c with
  | mk outcome c₁ =>
      cases outcome with
      | ok a => exact hnext a c₁
      | error e => rfl

end Job
end GestureStore
