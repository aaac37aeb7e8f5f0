/-
Timing the stages of a computation.

A watch looks at its clock when a stage begins and again when it is completed.  Without
a profiler, or with one that is switched off, it does not look at all.
-/
import GestureStore.Timing.Profiler

namespace GestureStore

/-- A clock, by the readings it gives. -/
structure Clock where
  /-- The reading at each look. -/
  reading : Nat → Int
  /-- How often it has been looked at. -/
  looks : Nat

namespace Clock

/-- A clock that stands still. -/
def still : Clock := ⟨fun _ => 0, 0⟩

/-- Look at the clock. -/
def look (c : Clock) : Int × Clock := (c.reading c.looks, { c with looks := c.looks + 1 })

end Clock

/-- What it takes to time stages. -/
structure Watch (δ : Type) where
  /-- Where the times go, if they are wanted. -/
  profiler : Option (Profiler δ)
  /-- The clock. -/
  clock : Clock

namespace Watch

variable [Duration δ]

/-- Begin a stage; what is noted of it comes with the watch. -/
def enter (w : Watch δ) : Option Int × Watch δ :=
  match w.profiler with
  | none => (none, w)
  | some p =>
    if p.enabled then
      let (now, clock) := w.clock.look
      (p.noted now, { w with clock })
    else (none, w)

/-- Complete a stage of which something may have been noted. -/
def leave (name : Text) (noted : Option Int) (w : Watch δ) : Watch δ :=
  match w.profiler, noted with
  | some p, some _ =>
    let (now, clock) := w.clock.look
    ⟨some (p.complete name noted now), clock⟩
  | _, _ => w

/-- Time a computation as a stage; it counts only if it does not fail. -/
def stage (name : Text) (body : Watch δ → Except ε α × Watch δ) (w : Watch δ) : Except ε α × Watch δ :=
  let (noted, w) := w.enter
  match body w with
  | (.ok a, w) => (.ok a, w.leave name noted)
  | (.error e, w) => (.error e, w)

end Watch
end GestureStore
