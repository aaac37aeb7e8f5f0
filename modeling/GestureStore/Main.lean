/-
The program on a real file system.

A run is computed on a picture of the disk: the places that the command line leads to
are looked up before it, and what it changed is written after it.  A file that was
written anew takes the place of the earlier one in a single step.
-/
import GestureStore.Command.Run
import Std.Time.DateTime.Timestamp

namespace GestureStore
namespace Program

/-- A text as a string; what no string can hold becomes a replacement character. -/
def string (t : Text) : String :=
  String.ofList (t.map fun p => if p.isSurrogate then Char.ofNat 0xFFFD else Char.ofNat p.val)

/-- The path of a place. -/
def pathOf (place : Place) : String := string place.path

/-- What stands at a place of the real disk; a directory is what cannot be read as a file. -/
def nodeAt (place : Place) : IO (Option Node) := do
  try
    let bytes ← IO.FS.readBinFile (pathOf place)
    return some (.file bytes.toList newFileMode)
  catch
  | .noFileOrDirectory .. => return none
  | _ => return some newDirectory

/-- The picture of the disk with what stands on the way along names. -/
def lookAlong (d : Disk) (place : Place) : List Text → IO Disk
  | [] => return d
  | name :: rest => do
    if name == Location.dots then lookAlong d place.parent rest
    else
      let next := place.child name
      match ← nodeAt next with
      | some node => lookAlong (d.put next node) next rest
      | none => return d

/-- The picture of the disk with what a path leads to. -/
def lookAt (d : Disk) (path : Text) : IO Disk := lookAlong d (d.origin path) (Location.namesOf path)

/-- The paths that a command names. -/
def pathsOf (home : Location) : Command → List Text
  | .entries source => paths source
  | .add _ trace source => trace :: paths source
  | .remove _ source => paths source
  | .recognize trace source _ => trace :: paths source
  | .dump source output => output.toList ++ paths source
  | .help => []
where
  /-- The paths that a source names. -/
  paths (source : Source) : List Text :=
    source.config.toList ++ (source.store.toList.map fun t => ((Location.ofText t).expanded home).text)

/-- The path of the store that a file with settings names. -/
def storePath (d : Disk) (config : Text) : List Text :=
  match d.read config with
  | .ok bytes =>
    match Settings.ofBytes bytes with
    | .ok s => [(s.location d.home).text]
    | .error _ => []
  | .error _ => []

/-- The picture of the disk as far as a command goes. -/
def picture (d : Disk) (command : Command) : IO Disk := do
  let paths := pathsOf d.home command
  let d ← paths.foldlM lookAt (← lookAlong d .root (d.here.names.map FileName.decode))
  (paths.flatMap (storePath d)).foldlM lookAt d

/-- Write what a run has changed. -/
def apply (before after : Disk) : IO Unit := do
  for (place, node) in after.nodes do
    if before.node? place ≠ some node then
      match node with
      | .directory _ => IO.FS.createDirAll (pathOf place)
      | .file bytes _ =>
        let path := pathOf place
        let temporary := path ++ ".tmp"
        IO.FS.writeBinFile temporary ⟨bytes.toArray⟩
        IO.FS.rename temporary path

/-- A supply of identifiers that earlier runs cannot have given: it begins at the time of day. -/
def supplyNow : IO Supply := do
  return ⟨(← Std.Time.Timestamp.now).toMillisecondsSinceUnixEpoch.toInt⟩

/-- Run the program on the real disk. -/
def run (arguments : List String) : IO UInt32 := do
  let words := arguments.map Text.of
  let home := Location.ofText (Text.of ((← IO.getEnv "HOME").getD "/"))
  let here := Place.ofNames (Location.namesOf (Text.of (toString (← IO.currentDir))))
  let start : Disk := { nodes := [], here, home }
  let before ←
    match Command.ofArguments words with
    | some command => picture start command
    | none => pure start
  let (outcome, console) := Command.execute words before (← supplyNow)
  apply before console.disk
  IO.print (string console.out)
  IO.eprint (string console.err)
  match outcome with
  | .exit code => return code.toUInt32
  | .uncaught fault =>
    IO.eprintln (string (fault.message?.getD (Text.of "the command failed")))
    return 1
  | .misused =>
    IO.eprintln (string Command.usage)
    return 2

end Program
end GestureStore

/-- The program. -/
def main (arguments : List String) : IO UInt32 := GestureStore.Program.run arguments
