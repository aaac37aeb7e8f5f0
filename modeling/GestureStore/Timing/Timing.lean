/-
Running totals of one stage.

Only totals are kept, never the single durations, so the size of a record does not
depend on how often the stage was run.
-/
import GestureStore.Timing.Duration

namespace GestureStore

/-- Running totals over the durations of one stage. -/
structure Timing (δ : Type) where
  /-- How often the stage was completed. -/
  calls : Nat
  /-- The sum of the durations. -/
  total : δ
  /-- The latest duration. -/
  last : δ
  /-- The shortest duration, if there was one. -/
  shortest : Option δ
  /-- The longest duration. -/
  longest : δ
  deriving DecidableEq

namespace Timing

variable [Duration δ]

/-- The totals over no durations. -/
def empty : Timing δ := ⟨0, Duration.zero, Duration.zero, none, Duration.zero⟩

/-- The shorter one of the shortest so far and another. -/
def shorterOf (sofar : Option δ) (d : δ) : Option δ :=
  match sofar with
  | none => if Duration.bounded d then some d else none
  | some s => some (if Duration.shorter d s then d else s)

/-- Count a duration. -/
def record (t : Timing δ) (d : δ) : Timing δ where
  calls := t.calls + 1
  total := Duration.add t.total d
  last := d
  shortest := shorterOf t.shortest d
  longest := if Duration.shorter t.longest d then d else t.longest

/-- The mean of the durations; of none it is zero. -/
def average (t : Timing δ) : δ := if t.calls = 0 then Duration.zero else Duration.share t.total t.calls

end Timing
end GestureStore
