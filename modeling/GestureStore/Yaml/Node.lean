/-
The nodes of a document.

A document is read into its nodes first: scalars as they are written, lists, and
mappings as pairs of nodes.  What an unquoted scalar stands for is settled afterwards,
so a document that is not well-formed is refused before any of its values is.

Keys that are no texts name nothing that could be asked for, and are dropped.  Of two
equal keys the later value stands; those of mappings that are taken in come first.
-/
import GestureStore.Yaml.Plain

namespace GestureStore
namespace Yaml

/-- A part of a document. -/
inductive Node where
  /-- A scalar; one in quotes is a text whatever it says. -/
  | scalar (t : Text) (quoted : Bool)
  /-- A list. -/
  | list (items : List Node)
  /-- Keys with their values, in order. -/
  | mapping (pairs : List (Node × Node))

namespace Node

/-- What stands where nothing is written. -/
def empty : Node := scalar [] false

/-- The node is a word without quotes. -/
def isWord (word : String) : Node → Bool
  | scalar t quoted => !quoted && t == Text.of word
  | _ => false

/-- The name that a node is as a key: none for a scalar of another kind, a fault for no scalar. -/
def name (key : Node) : Except Fault (Option Text) :=
  match key with
  | scalar t true => .ok (some t)
  | scalar t false =>
    if key.isWord "=" then .ok (some t)
    else do
      match ← valueOfPlain t with
      | .text t => return some t
      | _ => return none
  | _ => .error .badDocument

/-! ### Taking in other mappings -/

/-- The key whose value is not a value but a mapping, or several, to be taken in. -/
def takesIn (key : Node) : Bool := key.isWord "<<"

mutual

/-- Mappings, and lists of mappings, can be taken in, as far as they can take in what they ask for. -/
def canBeTaken : Node → Bool
  | scalar _ _ => false
  | list items => areMappings items
  | mapping pairs => canTake pairs

/-- All items can be taken in, and none is a list. -/
def areMappings : List Node → Bool
  | [] => true
  | mapping pairs :: rest => canTake pairs && areMappings rest
  | _ :: _ => false

/-- All that pairs ask for can be taken in. -/
def canTake : List (Node × Node) → Bool
  | [] => true
  | (key, n) :: rest => (!takesIn key || n.canBeTaken) && canTake rest

end

/-! ### Values -/

/-- A value under a name, or under a key that is none. -/
abbrev Entry := Option Text × Value

/-- The fields with an entry set. -/
def setEntry (fields : List (Text × Value)) (e : Entry) : List (Text × Value) :=
  match e.1 with
  | some name => Value.assign name e.2 fields
  | none => fields

mutual

/-- What a node stands for. -/
def value : Node → Except Fault Value
  | scalar t true => .ok (.text t)
  | scalar t false => valueOfPlain t
  | list items => do return .list (← values items)
  | mapping pairs =>
    if !canTake pairs then .error .badDocument
    else do
      let (taken, own) ← entries pairs
      return .object ((taken ++ own).foldl setEntry [])

/-- What the items of a list stand for. -/
def values : List Node → Except Fault (List Value)
  | [] => .ok []
  | n :: rest => do return (← n.value) :: (← values rest)

/-- What pairs take in, and their own entries. -/
def entries : List (Node × Node) → Except Fault (List Entry × List Entry)
  | [] => .ok ([], [])
  | (key, n) :: rest => do
    if takesIn key then
      let first ← n.offered
      let (taken, own) ← entries rest
      return (first ++ taken, own)
    else
      let name ← key.name
      let v ← n.value
      let (taken, own) ← entries rest
      return (taken, (name, v) :: own)

/-- The entries that a node has for another mapping. -/
def offered : Node → Except Fault (List Entry)
  | scalar _ _ => .error .badDocument
  | list items => offeredItems items
  | mapping pairs => do
    let (taken, own) ← entries pairs
    return taken ++ own

/-- The entries that mappings have for another one; the first mapping's come last, so that they stand. -/
def offeredItems : List Node → Except Fault (List Entry)
  | [] => .ok []
  | n :: rest => do
    let first ← n.offered
    return (← offeredItems rest) ++ first

end

end Node
end Yaml
end GestureStore
