/-
Points in time, as settings may name them.

A moment is a date, or a date with a time of day, which may have an offset from
universal time.  Only dates and times that exist are moments.  A moment is written
as a text, or described by its parts where a message shows what was found in the
place of something else.
-/
import GestureStore.Text

namespace GestureStore

/-- A time of day. -/
structure TimeOfDay where
  /-- The hour. -/
  hour : Nat
  /-- The minute. -/
  minute : Nat
  /-- The second. -/
  second : Nat
  /-- Millionths of a second. -/
  micros : Nat
  /-- How many minutes the clock is ahead of universal time, if that is known. -/
  offset : Option Int
  deriving DecidableEq, Repr

/-- A date, and perhaps a time of day. -/
structure Moment where
  /-- The year. -/
  year : Nat
  /-- The month. -/
  month : Nat
  /-- The day. -/
  day : Nat
  /-- The time of day. -/
  time : Option TimeOfDay
  deriving DecidableEq, Repr

/-! ### What exists -/

/-- The number of minutes of a day. -/
def minutesPerDay : Nat := 24 * 60

/-- The hour, minute and second are on the clock, and the offset is less than a day. -/
def TimeOfDay.isValid (t : TimeOfDay) : Bool :=
  t.hour < 24 && t.minute < 60 && t.second < 60 && t.offset.all fun o => o.natAbs < minutesPerDay

namespace Moment

/-- The number of days of a month. -/
def daysOf (year month : Nat) : Nat :=
  if month = 2 then
    if year % 4 = 0 ∧ (year % 100 ≠ 0 ∨ year % 400 = 0) then 29 else 28
  else if month = 4 ∨ month = 6 ∨ month = 9 ∨ month = 11 then 30
  else 31

/-- The date is in the calendar, which has no year zero, and the time is on the clock. -/
def isValid (m : Moment) : Bool :=
  0 < m.year && 0 < m.month && m.month ≤ 12 && 0 < m.day && m.day ≤ daysOf m.year m.month
    && m.time.all TimeOfDay.isValid

end Moment

/-! ### As a text -/

namespace TimeOfDay

/-- An offset in hours and minutes, with its sign. -/
def offsetText (offset : Int) : Text :=
  Text.of (if offset < 0 then "-" else "+") ++ Text.paddedNatural 2 (offset.natAbs / 60) ++ Text.of ":"
    ++ Text.paddedNatural 2 (offset.natAbs % 60)

/-- The time as a text; millionths are left out where there are none. -/
def text (t : TimeOfDay) : Text :=
  Text.paddedNatural 2 t.hour ++ Text.of ":" ++ Text.paddedNatural 2 t.minute ++ Text.of ":" ++ Text.paddedNatural 2 t.second
    ++ (if t.micros = 0 then [] else Text.of "." ++ Text.paddedNatural 6 t.micros)
    ++ (match t.offset with | some offset => offsetText offset | none => [])

end TimeOfDay

/-- The moment as a text: the date, then the time after a blank. -/
def Moment.text (m : Moment) : Text :=
  Text.paddedNatural 4 m.year ++ Text.of "-" ++ Text.paddedNatural 2 m.month ++ Text.of "-" ++ Text.paddedNatural 2 m.day
    ++ (match m.time with | some t => Text.of " " ++ t.text | none => [])

/-! ### By its parts -/

/-- A description: what is described, and its parts in brackets. -/
def description (what : String) (parts : List Text) : Text :=
  Text.of what ++ Text.of "(" ++ Text.joinWith (Text.of ", ") parts ++ Text.of ")"

namespace TimeOfDay

/-- The number of seconds of a day. -/
def secondsPerDay : Int := 60 * minutesPerDay

/-- An offset as a description; a negative one is a day back and some seconds forth. -/
def offsetDescription (offset : Int) : Text :=
  let seconds := Text.of "seconds=" ++ Text.integer (60 * offset % secondsPerDay)
  let parts := if offset < 0 then [Text.of "days=-1", seconds] else [seconds]
  if offset = 0 then Text.of "datetime.timezone.utc"
  else description "datetime.timezone" [description "datetime.timedelta" parts]

/-- The parts of a time; seconds and millionths are left out where there are none. -/
def parts (t : TimeOfDay) : List Text :=
  let small :=
    if t.micros ≠ 0 then [Text.natural t.second, Text.natural t.micros]
    else if t.second ≠ 0 then [Text.natural t.second]
    else []
  [Text.natural t.hour, Text.natural t.minute] ++ small
    ++ (match t.offset with | some o => [Text.of "tzinfo=" ++ offsetDescription o] | none => [])

end TimeOfDay

/-- The moment by its parts. -/
def Moment.described (m : Moment) : Text :=
  let date := [Text.natural m.year, Text.natural m.month, Text.natural m.day]
  match m.time with
  | none => description "datetime.date" date
  | some t => description "datetime.datetime" (date ++ t.parts)

end GestureStore
