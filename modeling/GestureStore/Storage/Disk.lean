/-
A file system, as far as a store has to do with one.

Files and directories stand at places.  A path is walked name by name.  The walk ends
at what is there, or at a place where something could be created, or it fails; a name
that is too long is told apart from all other failures, because only that one is not
simply taken for a missing file.

Whatever is to be changed may be refused, for want of a right, of room, or of a working
device.  What is refused is part of the disk, directory by directory (`Refusals`), so what
holds of every disk holds however a change comes to fail.
-/
import GestureStore.Storage.Location
import GestureStore.Storage.Place

namespace GestureStore

/-- What stands at a place. -/
inductive Node where
  /-- A file with its contents and its permission bits. -/
  | file (bytes : Bytes) (mode : Nat)
  /-- A directory with its permission bits. -/
  | directory (mode : Nat)
  deriving DecidableEq

/-- What is refused in a directory. -/
structure Refusals where
  /-- No directory is created. -/
  makeDirectory : Bool := false
  /-- No file is created. -/
  create : Bool := false
  /-- Permission bits stay what they are. -/
  setMode : Bool := false
  /-- The bytes there is room for in a file, if they are limited. -/
  room : Option Nat := none
  /-- What was written does not reach the device. -/
  sync : Bool := false
  /-- No file is moved. -/
  rename : Bool := false
  /-- No file is removed. -/
  remove : Bool := false

/-- Files and directories. -/
structure Disk where
  /-- What stands at which place; the root needs no entry. -/
  nodes : List (Place × Node)
  /-- The working directory. -/
  here : Place
  /-- The directory of the user. -/
  home : Location
  /-- What is refused in which directory. -/
  refusals : Place → Refusals := fun _ => {}

/-- Where a walk along a path ends. -/
inductive Walk where
  /-- At something. -/
  | found (place : Place) (node : Node)
  /-- In a directory that does not have the last name. -/
  | absent (place : Place)
  /-- Nowhere: a name on the way is missing or no directory. -/
  | lost
  /-- At a name, or on a path, of too many bytes. -/
  | tooLong
  deriving DecidableEq

/-- The permission bits of new files. -/
def newFileMode : Nat := 0o644

/-- The permission bits of a temporary file, until it is given others. -/
def temporaryMode : Nat := 0o600

/-- A new directory. -/
def newDirectory : Node := .directory 0o755

/-- The most bytes a name can have. -/
def maxNameBytes : Nat := 255

/-- A path must have fewer bytes than this. -/
def pathLimit : Nat := 4096

/-- The most directories that are created on one way. -/
def maxNewDirectories : Nat := 985

namespace Disk

/-- The number of bytes of a path or name. -/
def byteCount (t : Text) : Nat := (FileName.encode t).length

/-! ### Places -/

/-- What stands at a place. -/
def node? (d : Disk) (place : Place) : Option Node :=
  if place = .root then some newDirectory else (d.nodes.find? fun e => e.1 == place).map (·.2)

/-- Nothing at a place any more. -/
def erase (d : Disk) (place : Place) : Disk :=
  { d with nodes := d.nodes.filter fun e => !(e.1 == place) }

/-- Something at a place where nothing is. -/
def add (d : Disk) (place : Place) (node : Node) : Disk := { d with nodes := d.nodes ++ [(place, node)] }

/-- Something at a place, instead of what was there. -/
def put (d : Disk) (place : Place) (node : Node) : Disk := (d.erase place).add place node

/-- Walk along names from a directory on. -/
def walkFrom (d : Disk) (place : Place) : List Text → Walk
  | [] => match d.node? place with | some n => .found place n | none => .lost
  | name :: rest =>
    if name = Location.dots then walkFrom d place.parent rest
    else if maxNameBytes < byteCount name then .tooLong
    else
      let next := place.child name
      match d.node? next with
      | some (.directory _) => walkFrom d next rest
      | some (.file bytes mode) => if rest = [] then .found next (.file bytes mode) else .lost
      | none => if rest = [] then .absent next else .lost

/-- Where the path that a text denotes begins. -/
def origin (d : Disk) (t : Text) : Place := if Location.slashesOf t = 0 then d.here else .root

/-- A text that ends in a slash, or a dot after one, can only denote a directory. -/
def wantsDirectory (t : Text) : Bool :=
  match (Text.splitOn Location.slash t).getLast? with
  | some last => last.isEmpty || last == Location.dot
  | none => true

/-- Walk along the path that a text denotes. -/
def walk (d : Disk) (t : Text) : Except Fault Walk := do
  FileName.check t
  if pathLimit ≤ byteCount t then return .tooLong
  else if t.isEmpty then return .lost
  else
    match d.walkFrom (d.origin t) (Location.namesOf t) with
    | .found place (.file bytes mode) =>
      return if wantsDirectory t then .lost else .found place (.file bytes mode)
    | .absent place => return if wantsDirectory t then .lost else .absent place
    | other => return other

/-! ### Questions -/

/-- What stands at the end of a path; nothing where the path is no path. -/
def look (d : Disk) (l : Location) : Except Fault (Option Node) :=
  match d.walk l.text with
  | .error _ => .ok none
  | .ok (.found _ node) => .ok (some node)
  | .ok .tooLong => .error .system
  | .ok _ => .ok none

/-- There is something at the end of a path. -/
def pathExists (d : Disk) (l : Location) : Except Fault Bool := do return (← d.look l).isSome

/-- The contents of the file at the end of a path, if there is a file. -/
def contents? (d : Disk) (l : Location) : Except Fault (Option Bytes) := do
  match ← d.look l with
  | some (.file bytes _) => return some bytes
  | _ => return none

/-- The contents of a file that has to be there. -/
def read (d : Disk) (t : Text) : Except Fault Bytes := do
  match ← d.walk t with
  | .found _ (.file bytes _) => return bytes
  | _ => .error .system

/-- The permission bits of what has to be there. -/
def mode (d : Disk) (t : Text) : Except Fault Nat := do
  match ← d.walk t with
  | .found _ (.file _ mode) => return mode
  | .found _ (.directory mode) => return mode
  | _ => .error .system

/-! ### Changes -/

/-- Write the contents of a file, as far as there is room for them. -/
def fill (d : Disk) (place : Place) (bytes : Bytes) (mode : Nat) : Except Fault Unit × Disk :=
  match (d.refusals place.parent).room with
  | none => (.ok (), d.put place (.file bytes mode))
  | some room =>
    (if bytes.length ≤ room then .ok () else .error .system,
      d.put place (.file (bytes.take room) mode))

/-- Write a file; one that is there keeps its permission bits. -/
def write (d : Disk) (t : Text) (bytes : Bytes) : Except Fault Unit × Disk :=
  match d.walk t with
  | .error e => (.error e, d)
  | .ok (.found place (.file _ mode)) => d.fill place bytes mode
  | .ok (.absent place) =>
    if (d.refusals place.parent).create then (.error .system, d)
    else d.fill place bytes newFileMode
  | .ok _ => (.error .system, d)

/-- Remove a file. -/
def delete (d : Disk) (t : Text) : Except Fault Disk := do
  match ← d.walk t with
  | .found place (.file _ _) =>
    if (d.refusals place.parent).remove then .error .system else return d.erase place
  | _ => .error .system

/-- Change the permission bits of what has to be there. -/
def setMode (d : Disk) (t : Text) (mode : Nat) : Except Fault Disk := do
  match ← d.walk t with
  | .found place node =>
    if (d.refusals place.parent).setMode then .error .system
    else
      match node with
      | .file bytes _ => return d.put place (.file bytes mode)
      | .directory _ => return d.put place (.directory mode)
  | _ => .error .system

/--
Go along names from a directory on, creating the directories that are missing.

In a directory that is `fresh` nothing can be found, so nothing is looked for.
-/
def enter (d : Disk) (place : Place) (fresh : Bool) : List Text → Except Fault Place × Disk
  | [] => (.ok place, d)
  | name :: rest =>
    if name = Location.dots then enter d place.parent false rest
    else if maxNameBytes < byteCount name then (.error .system, d)
    else
      let next := place.child name
      match if fresh then none else d.node? next with
      | some (.directory _) => enter d next false rest
      | some (.file _ _) => (.error .system, d)
      | none =>
        if maxNewDirectories < (name :: rest).length then (.error .tooDeep, d)
        else if (d.refusals place).makeDirectory then (.error .system, d)
        else enter (d.add next newDirectory) next true rest

/-- Create a directory and those on the way to it, unless they are there. -/
def makeDirectories (d : Disk) (l : Location) : Except Fault Place × Disk :=
  match FileName.check l.text with
  | .error e => (.error e, d)
  | .ok () =>
    if pathLimit ≤ byteCount l.text then (.error .system, d)
    else d.enter (d.origin l.text) false l.names

/-- Create a single directory in another one, where nothing has its name. -/
def addDirectory (d : Disk) (place : Place) (name : Text) : Except Fault Disk :=
  let next := place.child name
  if name = Location.dots || maxNameBytes < byteCount name || (d.node? next).isSome
      || (d.refusals place).makeDirectory then .error .system
  else .ok (d.add next newDirectory)

/-- Create a directory that must not be there, after those on the way to it. -/
def makeDirectory (d : Disk) (l : Location) : Except Fault Unit × Disk :=
  match d.walk l.text with
  | .error e => (.error e, d)
  | .ok (.found _ _) => (.error .system, d)
  | .ok .tooLong => (.error .system, d)
  | .ok _ =>
    match d.makeDirectories l.parent with
    | (.error e, d) => (.error e, d)
    | (.ok place, d) =>
      match d.addDirectory place l.name with
      | .error e => (.error e, d)
      | .ok done => (.ok (), done)

/-! ### Replacing a file as a whole -/

/-- A name for a temporary file beside a file. -/
def temporaryName (name : Text) (n : Nat) : Text :=
  Text.of "." ++ name ++ Text.of "." ++ Text.lowerHex 8 n ++ Text.of ".tmp"

/-- A temporary name that nothing in a directory has, if there is one. -/
def freshName? (d : Disk) (directory : Place) (name : Text) : Option Text :=
  ((List.range (d.nodes.length + 1)).map (temporaryName name)).find? fun c =>
    (d.node? (directory.child c)).isNone

/-- The place of a temporary file that can be created beside a file. -/
def temporaryPlace (d : Disk) (directory : Place) (name : Text) : Except Fault Place := do
  FileName.check name
  match d.freshName? directory name with
  | none => .error .system
  | some temporary =>
    let place := directory.child temporary
    if maxNameBytes < byteCount temporary || pathLimit ≤ place.byteCount
        || (d.refusals directory).create then .error .system
    else return place

/-- The permission bits that a file is to have: those it has, or those of a new one. -/
def modeFor (d : Disk) (l : Location) : Except Fault Nat := do
  match ← d.walk l.text with
  | .found _ (.file _ mode) => return mode
  | .found _ (.directory mode) => return mode
  | .absent _ => return newFileMode
  | .lost => return newFileMode
  | .tooLong => .error .system

/-- Move a file to where a path ends; a directory is not replaced. -/
def rename (d : Disk) (place : Place) (node : Node) (l : Location) : Except Fault Disk := do
  if (d.refusals place.parent).rename then .error .system
  else
    match ← d.walk l.text with
    | .found target (.file _ _) => return (d.erase place).put target node
    | .absent target => return (d.erase place).put target node
    | _ => .error .system

/--
Create a temporary file, write it and move it to where a path ends.

`refused` is why not all bytes are there to be written; those that are there have been
written by then.
-/
def transfer (d : Disk) (place : Place) (l : Location) (bytes : Bytes) (refused : Option Fault) :
    Except Fault Unit × Disk :=
  let created := d.put place (.file [] temporaryMode)
  match created.modeFor l with
  | .error e => (.error e, created)
  | .ok mode =>
    if (d.refusals place.parent).setMode then (.error .system, created)
    else
      match created.fill place bytes mode with
      | (.error e, written) => (.error e, written)
      | (.ok (), written) =>
        match refused with
        | some e => (.error e, written)
        | none =>
          if (d.refusals place.parent).sync then (.error .system, written)
          else
            match written.rename place (.file bytes mode) l with
            | .error e => (.error e, written)
            | .ok done => (.ok (), done)

/-- Remove a temporary file; where that is refused it stays, and its place is told. -/
def discard (d : Disk) (place : Place) : Option Place × Disk :=
  if (d.refusals place.parent).remove then (some place, d) else (none, d.erase place)

/--
Write a file so that at no time only a part of it is there.

The directories on the way are created first.  Everything is written to a temporary
file beside the target, which takes the target's place at the end; if anything fails
after it was created, it is discarded and the target is as it was.  Told besides is
where the temporary file still is.
-/
def replace (d : Disk) (l : Location) (bytes : Bytes) (refused : Option Fault) :
    Except Fault Unit × Option Place × Disk :=
  match d.makeDirectories l.parent with
  | (.error e, d) => (.error e, none, d)
  | (.ok directory, d) =>
    match d.temporaryPlace directory l.name with
    | .error e => (.error e, none, d)
    | .ok place =>
      match d.transfer place l bytes refused with
      | (.error e, d) => (.error e, d.discard place)
      | (.ok (), d) => (.ok (), none, d)

/-! ### Listing -/

/-- What stands below a directory, with the names on the way to it. -/
def below (d : Disk) (directory : Place) : List (List Bytes × Node) :=
  d.nodes.filterMap fun e => (directory.namesFrom? e.1).map fun names => (names, e.2)

/-- A way in words; a directory's ends in a slash. -/
def listed (e : List Bytes × Node) : Text :=
  Text.joinWith [Location.slash] (e.1.map FileName.decode)
    ++ (match e.2 with | .directory _ => [Location.slash] | .file _ _ => [])

/-- Everything below the working directory, in code point order. -/
def listing (d : Disk) : List Text := ((d.below d.here).map listed).mergeSort Text.le

end Disk
end GestureStore
