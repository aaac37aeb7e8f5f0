/-
What is drawn, on a square grid of cells.

All paths are moved and scaled together, keeping their proportions, so that the
larger extent of what they cover spans the grid.  Each path is then a row of samples
close enough to each other to leave no gap, and each sample is shared out among the
four cells around it.  A cell keeps the most it ever got.  So neither the order of
the paths nor their number or direction matters, only what they cover.

How densely a segment is sampled follows from a measure of its length.
-/
import GestureStore.Feature.Path
import GestureStore.Fault

namespace GestureStore
namespace Raster

variable [Scalar α]

/-! ### Moving paths onto the grid -/

/-- The corner of the least coordinates. -/
def lowest (first : Vec α) (rest : List (Vec α)) : Vec α :=
  rest.foldl (fun m p => ⟨Scalar.lesser m.x p.x, Scalar.lesser m.y p.y⟩) first

/-- The corner of the greatest coordinates. -/
def highest (first : Vec α) (rest : List (Vec α)) : Vec α :=
  rest.foldl (fun m p => ⟨Scalar.greater m.x p.x, Scalar.greater m.y p.y⟩) first

/-- How points are brought onto the grid. -/
structure Frame (α : Type) where
  /-- The point that becomes the middle of the grid. -/
  center : Vec α
  /-- The factor of lengths. -/
  scale : α
  /-- Either coordinate of the middle of the grid. -/
  middle : α

/-- An extent up to this is none. -/
def leastSpan : α := Scalar.ofDecimal 1 8

/-- The frame that fits the points into a grid with `size` cells on a side. -/
def Frame.around (size : Nat) (first : Vec α) (rest : List (Vec α)) : Frame α :=
  let low := lowest first rest
  let high := highest first rest
  let two : α := Scalar.ofInt 2
  let span := Scalar.greater (high.x - low.x) (high.y - low.y)
  let last : α := Scalar.ofInt ((size : Int) - 1)
  { center := ⟨(low.x + high.x) / two, (low.y + high.y) / two⟩
    scale := if Scalar.lt leastSpan span then last / span else Scalar.zero
    middle := last / two }

/-- The place of a point on the grid. -/
def Frame.place (f : Frame α) (p : Vec α) : Vec α :=
  ⟨(p.x - f.center.x) * f.scale + f.middle, (p.y - f.center.y) * f.scale + f.middle⟩

/-! ### Samples -/

/-- The distance between neighbouring samples is at most this. -/
def spacing : α := Scalar.ofDecimal 5 1

/-- How many steps it takes along a segment of a given length. -/
def steps (length : α) : Nat := max 1 (Scalar.ceil (length / spacing)).toNat

/-- The samples of a segment, without its first point and with its last. -/
def segmentSamples (measure : Vec α → Vec α → α) (a b : Vec α) : List (Vec α) :=
  let n := steps (measure a b)
  (List.range n).map fun i =>
    let t : α := Scalar.ofInt (i + 1 : Nat) / Scalar.ofInt n
    Space.add a (Space.scale t (Space.sub b a))

/-- The samples of the segments from `start` on. -/
def samplesFrom (measure : Vec α → Vec α → α) (start : Vec α) : List (Vec α) → List (Vec α)
  | [] => []
  | next :: rest => segmentSamples measure start next ++ samplesFrom measure next rest

/-- The samples of a path: its first point and those of its segments. -/
def samples (measure : Vec α → Vec α → α) : List (Vec α) → List (Vec α)
  | [] => []
  | first :: rest => first :: samplesFrom measure first rest

/-! ### Cells -/

/-- What a cell is given. -/
structure Deposit (α : Type) where
  /-- The column of the cell; the last one is also -1. -/
  column : Int
  /-- The row of the cell; the last one is also -1. -/
  row : Int
  /-- The share. -/
  weight : α

/-- A coordinate moved into the grid, if it lies outside. -/
def clipped (size : Nat) (x : α) : α :=
  Scalar.lesser (Scalar.greater x Scalar.zero) (Scalar.ofInt ((size : Int) - 1))

/-- The lower of the two lines between which a coordinate lies; the last line is never it. -/
def line (size : Nat) (x : α) : Int := min (Scalar.floor x) ((size : Int) - 2)

/-- The shares of the four cells around a sample. -/
def deposits (size : Nat) (p : Vec α) : List (Deposit α) :=
  let x := clipped size p.x
  let y := clipped size p.y
  let column := line size x
  let row := line size y
  let fx := x - Scalar.ofInt column
  let fy := y - Scalar.ofInt row
  let gx := Scalar.one - fx
  let gy := Scalar.one - fy
  [⟨column, row, gx * gy⟩, ⟨column + 1, row, fx * gy⟩, ⟨column, row + 1, gx * fy⟩,
    ⟨column + 1, row + 1, fx * fy⟩]

/-- The number of a cell: rows follow one another. -/
def Deposit.cell (size : Nat) (d : Deposit α) : Nat :=
  (d.row % size).toNat * size + (d.column % size).toNat

/-- Give a cell its share; it keeps the larger of that and what it has. -/
def give (size : Nat) (cells : Array α) (d : Deposit α) : Array α :=
  cells.modify (d.cell size) fun most => Scalar.greater most d.weight

/-- All cells after every sample has been shared out. -/
def filled (size : Nat) (all : List (Vec α)) : Array α :=
  (all.flatMap (deposits size)).foldl (give size) (Array.replicate (size * size) Scalar.zero)

/-- The grid of several paths, given all their points as `first` and `rest`. -/
def grid (measure : Vec α → Vec α → α) (size : Nat) (paths : List (List (Vec α)))
    (first : Vec α) (rest : List (Vec α)) : List α :=
  let frame := Frame.around size first rest
  (filled size (paths.flatMap fun path => samples measure (path.map frame.place))).toList

/-- The grid of several paths; without any point no cell has got anything. -/
def cells (measure : Vec α → Vec α → α) (size : Nat) (paths : List (List (Vec α))) : List α :=
  match paths.flatten with
  | [] => List.replicate (size * size) Scalar.zero
  | first :: rest => grid measure size paths first rest

/-- The straight distance. -/
def straight (a b : Vec α) : α := Space.norm (Space.sub b a)

/-- The grid of several paths, their segments being measured along the straight line. -/
def features (size : Nat) (paths : List (List (Vec α))) : List α := cells straight size paths

/-- The grid of several paths, for what may be no size: there must be a path, and a cell. -/
def rasterized (size : Option Int) (paths : List (List (Vec α))) : Except Fault (List α) :=
  match paths, size with
  | [], _ => .error .badValue
  | _, none => .error .wrongKind
  | paths, some size =>
    if size < 0 then .error .badValue
    else if size = 0 then .error .badIndex
    else .ok (features size.toNat paths)

end Raster
end GestureStore
