import Cellular.Space.Vec

/-!
# Dense grids

A grid of a given shape holds one value for every cell. The cells lie in one array
in row-major order: the last coordinate runs fastest. A grid is read through
`get?`, and `ofFn` builds the grid whose cells have given values.
-/

namespace Cellular

/-- The number of cells of a grid of the given shape. -/
def cellCount (shape : List Nat) : Nat :=
  shape.foldr (· * ·) 1

/-- The coordinates of all cells, in row-major order. -/
def coordinates : (shape : List Nat) → List Vec
  | [] => [[]]
  | n :: shape =>
    (List.range n).flatMap fun (i : Nat) => (coordinates shape).map ((i : Int) :: ·)

/-- Whether every coordinate lies between zero and the size of its axis. The
shorter of the two lists decides how many are compared. -/
def inBounds : Vec → List Nat → Bool
  | c :: cell, n :: shape => decide (0 ≤ c) && decide (c < n) && inBounds cell shape
  | _, _ => true

/-- Whether the vector names a cell of a grid of the given shape. -/
def isCell (cell : Vec) (shape : List Nat) : Bool :=
  cell.length == shape.length && inBounds cell shape

/-- The place of a cell in row-major order. -/
def rowIndex : Vec → List Nat → Nat
  | c :: cell, _ :: shape => c.toNat * cellCount shape + rowIndex cell shape
  | _, _ => 0

/-- The cell that a vector reaches on a torus of the given shape. -/
def wrapInto (v : Vec) (shape : List Nat) : Vec :=
  List.zipWith (fun (c : Int) (n : Nat) => c % n) v shape

theorem length_coordinates (shape : List Nat) :
    (coordinates shape).length = cellCount shape := by
  induction shape with
  | nil => rfl
  | cons n shape ih =>
    simp only [coordinates, List.length_flatMap, List.length_map, ih, List.map_const',
      List.length_range, List.sum_replicate_nat]
    rfl

/-- A value for every cell of a shape. -/
structure Grid (α : Type) where
  shape : List Nat
  cells : Array α
  size_eq : cells.size = cellCount shape
deriving DecidableEq

namespace Grid

variable {α β γ : Type}

/-- The grid with the given value at every cell. -/
def ofFn (shape : List Nat) (value : Vec → α) : Grid α where
  shape := shape
  cells := ((coordinates shape).map value).toArray
  size_eq := by simp [length_coordinates]

/-- The grid with one value everywhere. -/
def fill (shape : List Nat) (value : α) : Grid α where
  shape := shape
  cells := Array.replicate (cellCount shape) value
  size_eq := by simp

/-- The value at a cell, if the vector names one. -/
def get? (grid : Grid α) (cell : Vec) : Option α :=
  if isCell cell grid.shape then grid.cells[rowIndex cell grid.shape]? else none

/-- The value at a cell, or the given value beyond the grid. -/
def getD (grid : Grid α) (cell : Vec) (beyond : α) : α :=
  (grid.get? cell).getD beyond

/-- The value that the grid shows at a cell when it is spread over a larger one. A grid of
rank zero shows its only value everywhere. -/
def spread (grid : Grid α) (cell : Vec) (beyond : α) : α :=
  grid.getD (if grid.shape.isEmpty then [] else cell) beyond

/-- The grid with another value at one cell. Nothing changes beyond the grid. -/
def set (grid : Grid α) (cell : Vec) (value : α) : Grid α where
  shape := grid.shape
  cells := if isCell cell grid.shape then
      grid.cells.setIfInBounds (rowIndex cell grid.shape) value
    else grid.cells
  size_eq := by split <;> simp [grid.size_eq]

/-- The grid of the images of all values. -/
def map (f : α → β) (grid : Grid α) : Grid β where
  shape := grid.shape
  cells := grid.cells.map f
  size_eq := by simp [grid.size_eq]

/-- Combines two grids of one shape cell by cell. -/
def zipWith (f : α → β → γ) (first : Grid α) (second : Grid β)
    (same : first.shape = second.shape) : Grid γ where
  shape := first.shape
  cells := first.cells.zipWith f second.cells
  size_eq := by simp [first.size_eq, second.size_eq, same]

/-- The grid with the values of another grid of its shape. No other grid changes it. -/
def overwrite (grid source : Grid α) : Grid α :=
  if same : grid.shape = source.shape then grid.zipWith (fun _ value => value) source same
  else grid

/-- The number of cells whose value passes a check. -/
def count (p : α → Bool) (grid : Grid α) : Nat :=
  grid.cells.countP p

/-- All cells with their values, in row-major order. -/
def entries (grid : Grid α) : List (Vec × α) :=
  (coordinates grid.shape).zip grid.cells.toList

/-- The extents of the axes as integers. -/
def extents (grid : Grid α) : Vec :=
  grid.shape.map Int.ofNat

/-- The grid of the values, if every cell has one. -/
def allSome? (grid : Grid (Option α)) : Option (Grid α) :=
  let cells := grid.cells.filterMap id
  if complete : cells.size = cellCount grid.shape then some ⟨grid.shape, cells, complete⟩
  else none

/-! ## Turning -/

/-- The grid turned as a torus, so that each cell shows the value an offset away. -/
def roll (grid : Grid α) (offset : Vec) (beyond : α) : Grid α :=
  ofFn grid.shape fun cell => grid.getD (wrapInto (Vec.add cell offset) grid.shape) beyond

end Grid

end Cellular
