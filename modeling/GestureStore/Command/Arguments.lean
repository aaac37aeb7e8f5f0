/-
The command line, read into commands.

Options may stand before, between and behind the arguments of a command, up to two
dashes that stand alone.  A long option takes its value from behind an equals sign,
a short one from what it is written together with, and either from the next word,
whatever that looks like.  An option that is given twice counts as it was given last.
-/
import GestureStore.Number.Numeral

namespace GestureStore

/-! ### Words -/

/-- The options that a word list may hold. -/
structure Grammar where
  /-- Options with a value. -/
  valued : List Text
  /-- Options without one. -/
  flags : List Text
  /-- Options may follow arguments. -/
  mixed : Bool

/-- What a list of words says. -/
structure Words where
  /-- The options with their values, the last one first. -/
  values : List (Text × Text)
  /-- The options without values. -/
  flags : List Text
  /-- Everything else. -/
  arguments : List Text
  deriving DecidableEq

namespace Words

/-- Nothing was said. -/
def empty : Words := ⟨[], [], []⟩

/-- The value of an option. -/
def value? (w : Words) (name : Text) : Option Text := (w.values.find? fun v => v.1 == name).map (·.2)

/-- An option without value is there. -/
def has (w : Words) (name : Text) : Bool := w.flags.contains name

end Words

namespace Grammar

/-- The word that ends the options. -/
def stop : Text := Text.of "--"

/-- A word that is an option, or should be one. -/
def isOption (w : Text) : Bool :=
  match w with
  | p :: _ :: _ => p.is '-'
  | _ => false

/-- What an option says. -/
inductive Reading where
  /-- It is there. -/
  | flags (names : List Text)
  /-- It has a value, some other options being written before it in the same word. -/
  | value (names : List Text) (name value : Text)
  /-- It has the next word for its value, some others being written before it. -/
  | next (names : List Text) (name : Text)

/-- The options in a word of one-letter options. -/
def readShort (g : Grammar) (sofar : List Text) : Text → Option Reading
  | [] => some (.flags sofar)
  | p :: rest =>
    let name := [CodePoint.ofChar '-', p]
    if g.flags.contains name then readShort g (sofar ++ [name]) rest
    else if g.valued.contains name then
      some (if rest.isEmpty then .next sofar name else .value sofar name rest)
    else .none

/-- The option in a word: the long one it spells, else the short ones written together in it. -/
def read (g : Grammar) (w : Text) : Option Reading :=
  let name := w.takeWhile fun p => !p.is '='
  let isLong := 2 < name.length
  if isLong && g.valued.contains name then
    match w.dropWhile fun p => !p.is '=' with
    | _ :: value => some (.value [] name value)
    | [] => some (.next [] name)
  else if isLong && g.flags.contains name then
    if name.length = w.length then some (.flags [name]) else .none
  else if w.startsWith stop then .none
  else g.readShort [] w.tail

/-- Read words from the first to the last; something that is no option of the grammar is a fault. -/
def parse (g : Grammar) (sofar : Words) : List Text → Option Words
  | [] => some sofar
  | w :: rest =>
    if w == stop then some { sofar with arguments := sofar.arguments ++ rest }
    else if isOption w then
      match g.read w with
      | .none => .none
      | some (.flags names) => parse g { sofar with flags := sofar.flags ++ names } rest
      | some (.value names name value) =>
        parse g { sofar with values := (name, value) :: sofar.values, flags := sofar.flags ++ names } rest
      | some (.next names name) =>
        match rest with
        | [] => .none
        | value :: rest =>
          parse g { sofar with values := (name, value) :: sofar.values, flags := sofar.flags ++ names }
            rest
    else if g.mixed then parse g { sofar with arguments := sofar.arguments ++ [w] } rest
    else some { sofar with arguments := sofar.arguments ++ w :: rest }

end Grammar

/-! ### Commands -/

/-- Which library a command works on. -/
structure Source where
  /-- The path of a store. -/
  store : Option Text
  /-- The path of a file with settings. -/
  config : Option Text
  /-- The name of the sequence policy. -/
  sequence : Text
  /-- The name of the orientation policy. -/
  orientation : Text
  deriving DecidableEq

/-- What the program can be asked to do. -/
inductive Command where
  /-- List the entries. -/
  | entries (source : Source)
  /-- Add the gestures of a trace under a label. -/
  | add (label trace : Text) (source : Source)
  /-- Remove an entry. -/
  | remove (label : Text) (source : Source)
  /-- Rank the entries for each gesture of a trace. -/
  | recognize (trace : Text) (source : Source) (top : Int)
  /-- Show everything that is stored, on the screen or in a file. -/
  | dump (source : Source) (output : Option Text)
  /-- Say how the program is used. -/
  | help
  deriving DecidableEq

namespace Command

/-- The option for help. -/
def helpOption : Text := Text.of "--help"

/-- The option for the store. -/
def storeOption : Text := Text.of "--store"

/-- The option for the settings. -/
def configOption : Text := Text.of "--config"

/-- The option for the sequence policy. -/
def sequenceOption : Text := Text.of "--sequence-type"

/-- The option for the orientation policy. -/
def orientationOption : Text := Text.of "--orientation-style"

/-- The option for the number of predictions. -/
def topOption : Text := Text.of "--top"

/-- The option for the file to write to. -/
def outputOption : Text := Text.of "-o"

/-- The options before a command. -/
def outer : Grammar where
  valued := []
  flags := [helpOption, Text.of "--verbose", Text.of "-v"]
  mixed := false

/-- The options of a command. -/
def inner (valued : List Text) : Grammar where
  valued := configOption :: valued
  flags := [helpOption]
  mixed := true

/-- The options of a command that trains or asks a library. -/
def working : List Text := [storeOption, sequenceOption, orientationOption]

/-- The name of either policy where none is given. -/
def defaultPolicy : Text := Text.of "sensitive"

/-- The library of a command that trains or asks it. -/
def workingSource (w : Words) : Source where
  store := w.value? storeOption
  config := w.value? configOption
  sequence := (w.value? sequenceOption).getD defaultPolicy
  orientation := (w.value? orientationOption).getD defaultPolicy

/-- The library of a command that only looks at it; every store can be read as one without sequence. -/
def lookingSource (w : Words) (store : Option Text) : Source where
  store := store
  config := w.value? configOption
  sequence := Text.of "invariant"
  orientation := Text.of "sensitive"

/-- The number of predictions that is shown where none is given. -/
def defaultTop : Int := 5

/-- A command with the options of a grammar, unless help is asked for. -/
def withWords (g : Grammar) (ws : List Text) (command : Words → Option Command) : Option Command :=
  match g.parse Words.empty ws with
  | none => none
  | some w => if w.has helpOption then some help else command w

/-- The command of a name, with its words. -/
def named (name : Text) (ws : List Text) : Option Command :=
  if name == Text.of "entries" then
    withWords (inner []) ws fun w =>
      match w.arguments with
      | [] => some (entries (lookingSource w none))
      | [store] => some (entries (lookingSource w (some store)))
      | _ => none
  else if name == Text.of "add" then
    withWords (inner working) ws fun w =>
      match w.arguments with
      | [label, trace] => some (add label trace (workingSource w))
      | _ => none
  else if name == Text.of "remove" then
    withWords (inner working) ws fun w =>
      match w.arguments with
      | [label] => some (remove label (workingSource w))
      | _ => none
  else if name == Text.of "recognize" then
    withWords (inner (topOption :: working)) ws fun w =>
      match w.arguments, (w.value? topOption).map Numeral.integer? with
      | [trace], none => some (recognize trace (workingSource w) defaultTop)
      | [trace], some (some top) => some (recognize trace (workingSource w) top)
      | _, _ => none
  else if name == Text.of "dump" then
    withWords (inner [outputOption]) ws fun w =>
      match w.arguments with
      | [] => some (dump (lookingSource w none) (w.value? outputOption))
      | [store] => some (dump (lookingSource w (some store)) (w.value? outputOption))
      | _ => none
  else none

/-- The command that a command line asks for, if it is well-formed. -/
def ofArguments (ws : List Text) : Option Command :=
  withWords outer ws fun w =>
    match w.arguments with
    | [] => none
    | name :: rest => named name rest

end Command
end GestureStore
