/-
Totals for every stage, by name.

A stage is looked at when it is entered: if timing is on, the reading of the clock is
noted.  When it is left, and only if it was noted on entering, the time since then is
counted.  A stage that fails is not counted.  Stages may be nested, also in stages of
the same name.
-/
import GestureStore.Timing.Timing
import GestureStore.Number.Decimal

namespace GestureStore

/-- The totals of all stages, in the order in which they were first completed. -/
structure Profiler (δ : Type) where
  /-- Stages that are entered now will be timed. -/
  enabled : Bool
  /-- The totals by name of the stage. -/
  timings : List (Text × Timing δ)

namespace Profiler

variable [Duration δ]

/-- A profiler that has seen nothing. -/
def start (enabled : Bool) : Profiler δ := ⟨enabled, []⟩

/-- The totals of a stage. -/
def timing? (p : Profiler δ) (name : Text) : Option (Timing δ) :=
  (p.timings.find? fun e => e.1 == name).map (·.2)

/-- The totals with a duration counted for a stage. -/
def count (name : Text) (d : δ) : List (Text × Timing δ) → List (Text × Timing δ)
  | [] => [(name, Timing.empty.record d)]
  | e :: rest => if e.1 == name then (e.1, e.2.record d) :: rest else e :: count name d rest

/-- What is noted of a stage on entering it. -/
def noted (p : Profiler δ) (now : Int) : Option Int := if p.enabled then some now else none

/-- A stage is completed; it counts if it was noted on entering. -/
def complete (p : Profiler δ) (name : Text) (noted : Option Int) (now : Int) : Profiler δ :=
  match noted with
  | none => p
  | some entered => { p with timings := count name (Duration.elapsed entered now) p.timings }

/-- Forget all totals. -/
def reset (p : Profiler δ) : Profiler δ := { p with timings := [] }

end Profiler

/-! ### Sessions -/

/-- A profiler at work: a clock, and the stages that are open. -/
structure Session (δ : Type) where
  /-- The totals. -/
  profiler : Profiler δ
  /-- The reading of the clock. -/
  now : Int
  /-- The open stages, the innermost first, with what was noted of them. -/
  stages : List (Text × Option Int)

/-- A step of a session. -/
inductive Session.Step where
  /-- Time passes. -/
  | tick (ticks : Int)
  /-- A stage is entered. -/
  | enter (name : Text)
  /-- The innermost stage is completed. -/
  | exit
  /-- The innermost stage fails. -/
  | fail
  /-- Timing is switched on or off. -/
  | enable (on : Bool)
  /-- The totals are forgotten. -/
  | reset

namespace Session

variable [Duration δ]

/-- A session with no stage open. -/
def start (enabled : Bool) : Session δ := ⟨Profiler.start enabled, 0, []⟩

/-- Make a step. -/
def step (s : Session δ) : Step → Session δ
  | .tick ticks => { s with now := s.now + ticks }
  | .enter name => { s with stages := (name, s.profiler.noted s.now) :: s.stages }
  | .exit =>
    match s.stages with
    | [] => s
    | (name, noted) :: outer =>
      { s with profiler := s.profiler.complete name noted s.now, stages := outer }
  | .fail => { s with stages := s.stages.tail }
  | .enable on => { s with profiler := { s.profiler with enabled := on } }
  | .reset => { s with profiler := s.profiler.reset }

/-- Make steps from the first to the last. -/
def run (s : Session δ) (steps : List Step) : Session δ := steps.foldl step s

end Session

/-! ### Summaries -/

/-- The totals of a stage as they are reported, in milliseconds. -/
structure Summary where
  /-- How often the stage was completed. -/
  calls : Nat
  /-- The mean duration. -/
  average : Text
  /-- The shortest duration. -/
  shortest : Text
  /-- The longest duration. -/
  longest : Text
  /-- The latest duration. -/
  last : Text

/-- Milliseconds as they are reported, with three decimal places. -/
def millisecondsText (d : Float) : Text := (Double.ofFloat d).fixed 3

/-- The totals of a stage as they are reported. -/
def Timing.summary (t : Timing Float) : Summary where
  calls := t.calls
  average := millisecondsText t.average
  shortest :=
    match t.shortest with
    | some d => millisecondsText d
    | none => (Double.infinity false).fixed 3
  longest := millisecondsText t.longest
  last := millisecondsText t.last

/-- The report on all stages. -/
def Profiler.summary (p : Profiler Float) : List (Text × Summary) :=
  p.timings.map fun e => (e.1, e.2.summary)

end GestureStore
