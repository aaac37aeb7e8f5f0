/-
What a profiler has counted, looking back.

A profiler keeps totals and forgets the durations they are made of, and a session keeps
the stages that are open and forgets those that were closed.  The steps that were made
still tell everything.  Looking back from a step that closes a stage, past the stages
that were entered and closed since, one finds where the stage was entered (`opened`), and
with it the time it took and whether timing was on.

So all that is kept can be said from the steps alone: the stages that are open are those
whose entering is found (`stages_eq`), and the totals of a name are those over its
completed stages since the last reset (`timing?_eq`).  Nothing depends on what durations
are.

Steps are looked at backwards here, so a list of past steps has the latest first.
-/
import GestureStore.Timing.Profiler
import Mathlib.Data.List.Basic

namespace GestureStore

/-! ### Counting -/

namespace Profiler

variable [Duration δ]

omit [Duration δ] in
theorem timing?_cons (on : Bool) (e : Text × Timing δ) (rest : List (Text × Timing δ))
    (name : Text) :
    timing? ⟨on, e :: rest⟩ name = if e.1 = name then some e.2 else timing? ⟨on, rest⟩ name := by
  by_cases h : e.1 = name
  · simp [timing?, h]
  · simp [timing?, h]

/-- A duration is counted for its own stage and for no other. -/
theorem timing?_complete (p : Profiler δ) (stage name : Text) (entered now : Int) :
    (p.complete stage (some entered) now).timing? name
      = if stage = name then
          some (((p.timing? name).getD Timing.empty).record (Duration.elapsed entered now))
        else p.timing? name := by
  obtain ⟨on, ts⟩ := p
  simp only [complete]
  induction ts with
  | nil => by_cases h : stage = name <;> simp [count, timing?, h]
  | cons e rest ih =>
      rw [count, timing?_cons]
      by_cases hstage : e.1 = stage
      · rw [if_pos (by simpa using hstage), timing?_cons, hstage]
        by_cases h : stage = name
        · simp only [if_pos h, Option.getD_some]
        · simp only [if_neg h]
      · rw [if_neg (by simpa using hstage), timing?_cons, ih]
        by_cases h : e.1 = name
        · have hne : ¬ stage = name := fun hname => hstage (h.trans hname.symm)
          simp only [if_pos h, if_neg hne]
        · simp only [if_neg h]

end Profiler

/-- The totals over durations, if there are any. -/
def Timing.over? [Duration δ] (ds : List δ) : Option (Timing δ) :=
  if ds.isEmpty then none else some (ds.foldl record empty)

theorem Timing.over?_concat [Duration δ] (ds : List δ) (d : δ) :
    over? (ds ++ [d]) = some (((over? ds).getD empty).record d) := by
  cases ds <;> simp [over?]

namespace Session

/-! ### Looking back -/

/-- The reading of the clock after some steps. -/
def clockAfter : List Step → Int
  | [] => 0
  | .tick ticks :: past => clockAfter past + ticks
  | _ :: past => clockAfter past

/-- Timing is on after some steps. -/
def timedAfter (on : Bool) : List Step → Bool
  | [] => on
  | .enable on :: _ => on
  | _ :: past => timedAfter on past

/--
The stage that is open around `depth` others after some steps: its name, and the steps
before it was entered.
-/
def opened : Nat → List Step → Option (Text × List Step)
  | _, [] => none
  | 0, .enter name :: past => some (name, past)
  | depth + 1, .enter _ :: past => opened depth past
  | depth, .exit :: past => opened (depth + 1) past
  | depth, .fail :: past => opened (depth + 1) past
  | depth, .tick _ :: past => opened depth past
  | depth, .enable _ :: past => opened depth past
  | depth, .reset :: past => opened depth past

/-- When the stage that a step completes was entered, if it is of a name and was timed. -/
def entered? (on : Bool) (name : Text) (past : List Step) : Option Int :=
  match opened 0 past with
  | some (stage, before) =>
    if stage = name ∧ timedAfter on before = true then some (clockAfter before) else none
  | none => none

/--
The completed stages of a name since the last reset, each with the readings of the clock
when it was entered and when it was completed, in the order in which they were completed.
-/
def completed (on : Bool) (name : Text) : List Step → List (Int × Int)
  | [] => []
  | .reset :: _ => []
  | .exit :: past =>
    completed on name past
      ++ (entered? on name past).toList.map fun entered => (entered, clockAfter past)
  | _ :: past => completed on name past

/-- Steps that close only stages they enter, and leave some of these open. -/
inductive Leaves : Nat → List Step → Prop where
  /-- No step. -/
  | nil : Leaves 0 []
  /-- Time passes. -/
  | tick {n : Nat} {past : List Step} (ticks : Int) (h : Leaves n past) :
      Leaves n (.tick ticks :: past)
  /-- Timing is switched on or off. -/
  | enable {n : Nat} {past : List Step} (on : Bool) (h : Leaves n past) :
      Leaves n (.enable on :: past)
  /-- The totals are forgotten. -/
  | reset {n : Nat} {past : List Step} (h : Leaves n past) : Leaves n (.reset :: past)
  /-- A stage is entered. -/
  | enter {n : Nat} {past : List Step} (name : Text) (h : Leaves n past) :
      Leaves (n + 1) (.enter name :: past)
  /-- A stage is completed. -/
  | exit {n : Nat} {past : List Step} (h : Leaves (n + 1) past) : Leaves n (.exit :: past)
  /-- A stage fails. -/
  | fail {n : Nat} {past : List Step} (h : Leaves (n + 1) past) : Leaves n (.fail :: past)

/-- **The stage around others was entered just before these, and before all that was closed since.** -/
theorem opened_eq_some_iff {depth : Nat} {name : Text} {past before : List Step} :
    opened depth past = some (name, before) ↔
      ∃ since, Leaves depth since ∧ past = since ++ .enter name :: before := by
  constructor
  · intro h
    induction past generalizing depth with
    | nil => simp [opened] at h
    | cons s past ih =>
        cases s with
        | tick ticks =>
            obtain ⟨since, hsince, rfl⟩ := ih h
            exact ⟨_, .tick ticks hsince, rfl⟩
        | enable on =>
            obtain ⟨since, hsince, rfl⟩ := ih h
            exact ⟨_, .enable on hsince, rfl⟩
        | reset =>
            obtain ⟨since, hsince, rfl⟩ := ih h
            exact ⟨_, .reset hsince, rfl⟩
        | exit =>
            obtain ⟨since, hsince, rfl⟩ := ih h
            exact ⟨_, .exit hsince, rfl⟩
        | fail =>
            obtain ⟨since, hsince, rfl⟩ := ih h
            exact ⟨_, .fail hsince, rfl⟩
        | enter stage =>
            cases depth with
            | zero =>
                obtain ⟨rfl, rfl⟩ := Prod.mk.inj (Option.some.inj h)
                exact ⟨[], .nil, rfl⟩
            | succ depth =>
                obtain ⟨since, hsince, rfl⟩ := ih h
                exact ⟨_, .enter stage hsince, rfl⟩
  · intro h
    obtain ⟨since, hsince, rfl⟩ := h
    induction hsince with
    | nil => rfl
    | tick _ _ ih => exact ih
    | enable _ _ ih => exact ih
    | reset _ ih => exact ih
    | enter _ _ ih => exact ih
    | exit _ ih => exact ih
    | fail _ ih => exact ih

/-! ### What a session keeps -/

variable [Duration δ]

private theorem run_cons (s : Session δ) (x : Step) (past : List Step) :
    s.run (x :: past).reverse = (s.run past.reverse).step x := by
  rw [run, List.reverse_cons, List.foldl_append]
  rfl

theorem now_eq (on : Bool) (past : List Step) :
    ((start on : Session δ).run past.reverse).now = clockAfter past := by
  induction past with
  | nil => rfl
  | cons x past ih =>
      rw [run_cons]
      cases x with
      | tick ticks => exact congrArg (· + ticks) ih
      | exit =>
          rw [step]
          split <;> exact ih
      | _ => exact ih

theorem enabled_eq (on : Bool) (past : List Step) :
    ((start on : Session δ).run past.reverse).profiler.enabled = timedAfter on past := by
  induction past with
  | nil => rfl
  | cons x past ih =>
      rw [run_cons]
      cases x with
      | enable _ => rfl
      | exit =>
          rw [step]
          split
          · exact ih
          · rename_i name noted outer hstages
            cases noted <;> exact ih
      | _ => exact ih

/-- **What a session notes of an open stage is what is found looking back.** -/
theorem stages_eq (on : Bool) (past : List Step) (depth : Nat) :
    ((start on : Session δ).run past.reverse).stages[depth]?
      = (opened depth past).map fun o =>
          (o.1, if timedAfter on o.2 then some (clockAfter o.2) else none) := by
  induction past generalizing depth with
  | nil => simp [run, start, opened]
  | cons x past ih =>
      have htail : ∀ depth,
          ((start on : Session δ).run past.reverse).stages.tail[depth]?
            = (opened (depth + 1) past).map fun o =>
                (o.1, if timedAfter on o.2 then some (clockAfter o.2) else none) := by
        intro depth
        rw [List.getElem?_tail, ih]
      rw [run_cons]
      cases x with
      | enter name =>
          cases depth with
          | zero =>
              have hnoted : ((start on : Session δ).run past.reverse).profiler.noted
                  ((start on : Session δ).run past.reverse).now
                    = if timedAfter on past then some (clockAfter past) else none := by
                rw [Profiler.noted, enabled_eq, now_eq]
              simp [step, opened, hnoted]
          | succ depth => exact ih depth
      | exit =>
          rw [opened, ← htail, step]
          split
          · rename_i hnone
            rw [hnone]
            rfl
          · rename_i name noted outer hstages
            rw [hstages]
            rfl
      | fail =>
          rw [opened, ← htail]
          rfl
      | _ => exact ih depth

/-- **The totals of a name are those over its completed stages.** -/
theorem timing?_eq (on : Bool) (past : List Step) (name : Text) :
    ((start on : Session δ).run past.reverse).profiler.timing? name
      = Timing.over? ((completed on name past).map fun s => Duration.elapsed s.1 s.2) := by
  induction past with
  | nil => rfl
  | cons x past ih =>
      rw [run_cons]
      cases x with
      | reset => rfl
      | exit =>
          have hopen := stages_eq (δ := δ) on past 0
          rw [step, completed, entered?]
          cases hopened : opened 0 past with
          | none =>
              rw [hopened, Option.map_none, List.getElem?_eq_none_iff, Nat.le_zero,
                List.length_eq_zero_iff] at hopen
              simp only [hopen, Option.toList_none, List.map_nil, List.append_nil]
              exact ih
          | some o =>
              obtain ⟨stage, before⟩ := o
              rw [hopened, Option.map_some] at hopen
              obtain ⟨outer, hstages⟩ : ∃ outer, ((start on : Session δ).run past.reverse).stages
                  = (stage, if timedAfter on before then some (clockAfter before) else none)
                    :: outer := by
                cases hstages : ((start on : Session δ).run past.reverse).stages with
                | nil => simp [hstages] at hopen
                | cons s outer =>
                    rw [hstages, List.getElem?_cons_zero] at hopen
                    exact ⟨outer, by rw [Option.some.inj hopen]⟩
              simp only [hstages]
              by_cases htimed : timedAfter on before = true
              · simp only [htimed, if_true, and_true]
                rw [Profiler.timing?_complete, now_eq, ih]
                by_cases hname : stage = name
                · rw [if_pos hname, if_pos hname, Option.toList_some, List.map_singleton,
                    List.map_append, List.map_singleton, Timing.over?_concat]
                · rw [if_neg hname, if_neg hname, Option.toList_none, List.map_nil,
                    List.append_nil]
              · simp only [if_neg htimed, if_neg fun h : stage = name ∧ _ => htimed h.2,
                  Option.toList_none, List.map_nil, List.append_nil]
                exact ih
      | _ => exact ih

end Session
end GestureStore
