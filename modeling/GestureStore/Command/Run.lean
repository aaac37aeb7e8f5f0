/-
Carrying out commands.

Every command first opens its library: the one that settings describe, or else the
store that is named.  A store that is there has to be readable.  Commands that change
the library save it, and say that they are done only when it is saved.
-/
import GestureStore.Command.Arguments
import GestureStore.Command.Console
import GestureStore.Geometry.Trace
import GestureStore.Json.Reader
import GestureStore.Json.Writer
import GestureStore.Library.Run
import GestureStore.Number.Decimal

namespace GestureStore
namespace Command

open Job

/-- The library that commands work on. -/
abbrev Opened := Library Single

/-! ### Opening -/

/-- What is told about a notice. -/
def warn (notices : List Notice) : Job Unit :=
  notices.forM fun n => log (Text.of "WARNING gesture_library.library: " ++ n.message)

/-- The library that a source describes, before anything is read into it. -/
def library (source : Source) : Job Opened := do
  let d ← disk
  match source.config.getD [], source.store.getD [] with
  | [], [] => refuse (Text.of "Give a store path or --config")
  | [], store =>
    let policy : Except Fault Policy := do
      let sequence ← (Value.text source.sequence).toSequence
      let orientation ← (Value.text source.orientation).toOrientation
      return ⟨sequence, some orientation⟩
    match policy with
    | .ok policy => return Library.new ((Location.ofText store).expanded d.home) policy none
    | .error e => refuse (e.message?.getD [])
  | config, _ =>
    let bytes ← orEnd (d.read config)
    let settings ← orEnd (Settings.ofBytes bytes)
    return Library.ofSettings d.home settings

/-- Open the library of a source. -/
def openLibrary (source : Source) : Job Opened := do
  let l ← library source
  let d ← disk
  if ← orEnd (d.pathExists l.location) then
    let (outcome, notices, l) := l.load d
    warn notices
    if ← orEnd outcome then return l
    else refuse (Text.of "Could not read gesture store: " ++ l.location.text)
  else return l

/-! ### Traces -/

/-- The name of the field with several gestures. -/
def gesturesField : Text := Text.of "gestures"

/-- The values of the gestures in a trace: an object may hold several, or be one. -/
def traceItems (v : Value) : Except Fault (List Value) :=
  match v with
  | .object fields => ((Value.lookup gesturesField fields).getD (.list [v])).items
  | v => v.items

/-- How deep lists and objects may be nested in a trace. -/
def maxTraceDepth : Nat := 970

/-- The gestures in the contents of a trace file. -/
def gesturesOf (bytes : Bytes) (supply : Supply) : Except Fault (List Gesture) × Supply :=
  match Utf8.decode bytes with
  | .error e => (.error (.undecodable e), supply)
  | .ok t =>
    match Json.read maxTraceDepth t with
    | .error e => (.error e, supply)
    | .ok v =>
      match traceItems v with
      | .error e => (.error e, supply)
      | .ok items => Gesture.ofValues items supply

/-- A fault that says that a trace is malformed. -/
def isMalformed : Fault → Bool
  | .outOfRange => false
  | .badIndex => false
  | .unpackable => false
  | .system => false
  | .badDocument => false
  | .tooDeep => false
  | _ => true

/-- Read the gestures in a trace file. -/
def readTrace (path : Text) : Job (List Gesture) := do
  let location := Location.ofText path
  let d ← disk
  if !(← orEnd (d.pathExists location)) then refuse (Text.of "Trace file not found: " ++ path)
  else
    let bytes ← orEnd (d.read location.text)
    let c ← get
    let (outcome, supply) := gesturesOf bytes c.supply
    set { c with supply }
    match outcome with
    | .ok gs => return gs
    | .error e =>
      if isMalformed e then
        let cause := match e.message? with | some m => Text.of " " ++ m | none => []
        refuse (Text.of "Malformed trace file " ++ path ++ Text.of ":" ++ cause)
      else throw (.uncaught e)

/-! ### Saving -/

/-- Save the library. -/
def saveLibrary (l : Opened) : Job Unit := do
  let c ← get
  let (outcome, notices, l, disk) := l.save c.disk
  set { c with disk }
  warn notices
  if !(← orEnd outcome) then refuse (Text.of "Could not save gesture store: " ++ l.location.text)

/-! ### Commands -/

/-- The number of gestures as it is told. -/
def gestureCount (n : Nat) : Text := Text.natural n ++ Text.of " gesture(s)"

/-- The width of the column of names. -/
def nameWidth : Nat := 25

/-- List the entries in the order of their names. -/
def runEntries (source : Source) : Job Unit := do
  let l ← openLibrary source
  if l.entries.isEmpty then say (Text.of "📭 Library is empty")
  else
    l.entries.sorted.forM fun e =>
      say (Text.of "   " ++ e.1.padRight nameWidth ++ Text.of " " ++ gestureCount e.2.length)

/-- Add gestures to a library, up to the first that is refused. -/
def addAll (label : Text) : List Gesture → Opened → Except Fault Opened
  | [], l => .ok l
  | g :: rest, l =>
    match l.add (.text label) g with
    | (.ok (), l) => addAll label rest l
    | (.error e, _) => .error e

/-- Add the gestures of a trace under a label. -/
def runAdd (label trace : Text) (source : Source) : Job Unit := do
  let l ← openLibrary source
  let gs ← readTrace trace
  match addAll label gs l with
  | .error e => refuse (e.message?.getD [])
  | .ok l =>
    saveLibrary l
    say (Text.of "✅ Added " ++ gestureCount gs.length ++ Text.of " to '" ++ label ++ Text.of "'")

/-- Remove an entry, which has to be there. -/
def runRemove (label : Text) (source : Source) : Job Unit := do
  let l ← openLibrary source
  if !l.entries.contains label then refuse (Text.of "No entry named '" ++ label ++ Text.of "'")
  else
    saveLibrary (l.removeEntryNamed label)
    say (Text.of "🗑  Removed '" ++ label ++ Text.of "'")

/-- The first few of a list; a negative number leaves out as many from its end. -/
def firstOf (top : Int) (xs : List α) : List α :=
  xs.take (if top < 0 then (xs.length + top).toNat else top.toNat)

/-- Show the names for one gesture after the other. -/
def recognizeAll (top : Int) : Nat → List Gesture → Opened → Job Unit
  | _, [], _ => pure ()
  | i, g :: rest, l => do
    match l.recognize g with
    | (.error e, _) => refuse (e.message?.getD [])
    | (.ok ps, l) =>
      say (Text.of "🤚 Gesture " ++ Text.natural i ++ Text.of ":")
      if ps.isEmpty then say (Text.of "   (no predictions)")
      (firstOf top ps).forM fun p =>
        say (Text.of "   → " ++ p.name ++ Text.of ": " ++ (Double.ofFloat p.score).fixed 3)
      recognizeAll top (i + 1) rest l

/-- Rank the entries for each gesture of a trace. -/
def runRecognize (trace : Text) (source : Source) (top : Int) : Job Unit := do
  let l ← openLibrary source
  recognizeAll top 0 (← readTrace trace) l

/-- Everything that is stored, as a value. -/
def everything (l : Opened) : Value :=
  .object [(Text.of "entries",
    .object (l.entries.sorted.map fun e => (e.1, .list (e.2.map Gesture.toValue))))]

/-- Show everything that is stored, on the screen or in a file. -/
def runDump (source : Source) (output : Option Text) : Job Unit := do
  let l ← openLibrary source
  let shown := Json.renderWide (everything l)
  match output.getD [] with
  | [] => say shown
  | path =>
    let c ← get
    let (outcome, disk) := c.disk.write path (shown.flatMap Utf8.encodeOne)
    set { c with disk }
    orEnd outcome
    say (Text.of "💾 Saved to: " ++ path)

/-- How the program is used. -/
def usage : Text := Text.of "Usage: gesture-library [OPTIONS] COMMAND [ARGS]..."

/-- Carry out a command. -/
def run : Command → Job Unit
  | entries source => runEntries source
  | add label trace source => runAdd label trace source
  | remove label source => runRemove label source
  | recognize trace source top => runRecognize trace source top
  | dump source output => runDump source output
  | help => say usage

/-! ### Whole runs -/

/-- How a run of the program ends. -/
inductive Outcome where
  /-- With an exit code. -/
  | exit (code : Nat)
  /-- With a fault that nothing dealt with. -/
  | uncaught (fault : Fault)
  /-- The command line was not understood. -/
  | misused
  deriving DecidableEq

/-- Run the program with a command line; the streams begin empty. -/
def execute (arguments : List Text) (disk : Disk) (supply : Supply) : Outcome × Console :=
  let console : Console := ⟨disk, supply, [], []⟩
  match ofArguments arguments with
  | none => (.misused, console)
  | some command =>
    match (run command).run console with
    | (.ok (), c) => (.exit 0, c)
    | (.error (.exit code), c) => (.exit code, c)
    | (.error (.uncaught fault), c) => (.uncaught fault, c)

end Command
end GestureStore
