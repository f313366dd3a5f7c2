import Cellular.Space.Boundary
import Cellular.Space.Capacity
import Cellular.Text.Scalar

/-!
# Queries

The neighbours of a cell and the copies of a grid can be asked for with vectors of any
length, a static boundary may hold a value of any kind, and what the answer is taken
from may be too large to be stored. A query says what stands in the way, or gives what
the boundary gives.
-/

namespace Cellular

namespace Boundary

variable {σ : Type}

/-! ## One cell -/

/-- Why a vector leads to no neighbour: it has too few coordinates to reach a cell, or
too many, or nothing is left when it is wrapped around an axis without extent. -/
inductive NeighborFault where
  | tooShort
  | tooLong
  | emptyAxis
deriving DecidableEq, Repr

/-- What is wrong with the sum of a cell and an offset in a grid of the given shape.
Beyond the edge of a grid that is not wrapped the length does not matter, and a torus
ignores what it has no axis for. -/
def neighborFault? (boundary : Boundary σ) (shape : List Nat) (target : Vec) :
    Option NeighborFault :=
  match boundary with
  | wrap =>
    if (shape.take target.length).contains 0 then some .emptyAxis
    else if target.length < shape.length then some .tooShort
    else none
  | void | static _ =>
    if !inBounds target shape then none
    else if target.length < shape.length then some .tooShort
    else if shape.length < target.length then some .tooLong
    else none

/-- The state of the neighbour of a cell at an offset, for vectors of any length. -/
def neighbor (boundary : Boundary σ) (grid : Grid σ) (cell offset : Vec) :
    Except NeighborFault (Option σ) :=
  match boundary.neighborFault? grid.shape (Vec.add cell offset) with
  | some fault => .error fault
  | none => .ok (boundary.neighborState grid cell offset)

/-! ## Room -/

/-- Why so much memory cannot hold what the copies of a grid are taken from. A torus needs
nothing besides the grid. -/
def roomFault? (memory : Nat) (boundary : Boundary σ) (shape : List Nat) (offsets : List Vec) :
    Option CapacityFault :=
  match boundary, offsets with
  | wrap, _ | _, [] => none
  | _, offsets =>
    let width := frameWidth offsets
    let framed := shape.map (· + 2 * width)
    if greatestAddress < width then some (.tooWide width)
    else storageFault? memory cellBytes framed

/-! ## All cells -/

/-- Why a grid has no copies for some offsets: an offset turns no torus of its rank, the
framed grid cannot be stored, or the state of the frame cannot. -/
inductive CopyFault where
  | noTurn (offset : Vec)
  | noRoom (fault : CapacityFault)
  | noCell (fault : CellFault)
deriving DecidableEq, Repr

/-- The boundary of a grid of cells, given the cells of states. -/
def ofCells (cell : σ → Except CellFault Int) : Boundary σ → Except CellFault (Boundary Int)
  | void => .ok void
  | wrap => .ok wrap
  | static state => (cell state).map static

/-- The shifted copies of a grid in so much memory, for offsets of any length. A grid
without axes cannot be turned, and no copies at all need nothing. -/
def copies (memory : Nat) (cell : σ → Except CellFault Int) (boundary : Boundary σ)
    (grid : Grid Int) (offsets : List Vec) : Except CopyFault (List (Grid (Option Int))) := do
  if offsets.isEmpty then return []
  let rank := grid.shape.length
  if boundary matches .wrap then
    if let some offset := offsets.find? fun offset => rank = 0 || (turn? rank offset).isNone then
      throw (.noTurn offset)
  if let some fault := boundary.roomFault? memory grid.shape offsets then throw (.noRoom fault)
  return (← (boundary.ofCells cell).mapError .noCell).neighborGrids grid offsets

end Boundary

end Cellular
