import Cellular.Program.Description
import Cellular.Text.Digits

/-!
# Snapshots

A snapshot is the picture of a grid at some generation. It is read by coordinates,
cell by cell in row-major order, or by states.

What cannot be set up or read as asked is refused with a report. A report that shows a
number with more digits than can be written is never finished, and then this is why the
request fails.
-/

namespace Cellular

/-- Why a grid cannot be set up or read as asked. -/
inductive ConfigurationFault where
  | coordinateRank (cell : Vec) (rank : Nat)
  | outside (cell extents : Vec)
  | noDimensions
  | gridRank (given rank : Nat)
  | notPositive (dimensions : List Scalar)
  | noStart
  | undeclaredState (name : String) (cell : Vec)
  | unassigned (count : Nat)

/-- The report of a configuration fault. -/
def ConfigurationFault.message : ConfigurationFault → String
  | coordinateRank cell rank =>
    "Coordinate " ++ cell.tupleText ++ " does not have rank " ++ toString rank
  | outside cell extents =>
    "Coordinate " ++ cell.tupleText ++ " is outside the grid of size " ++ extents.tupleText
  | noDimensions =>
    "No grid dimensions given and the environment does not declare a size for every axis"
  | gridRank given rank =>
    "Grid of rank " ++ toString given ++ " given for a " ++ toString rank ++ "D environment"
  | notPositive dimensions =>
    "Grid dimensions must be positive integers, got " ++
      Text.tuple (dimensions.map Scalar.item)
  | noStart => "No default state declared and no initial grid given"
  | undeclaredState name cell => "Undeclared state " ++ name ++ " at " ++ cell.tupleText
  | unassigned count =>
    "No default state declared and " ++ toString count ++ " cells have no initial state"

/-- A value that stands for a whole number. -/
def Scalar.number? : Scalar → Option Int
  | .whole n => some n
  | _ => none

/-- The numbers that the report of a configuration fault shows. -/
def ConfigurationFault.numbers : ConfigurationFault → List Int
  | coordinateRank cell rank => cell ++ [(rank : Int)]
  | outside cell extents => cell ++ extents
  | gridRank given rank => [(given : Int), (rank : Int)]
  | notPositive dimensions => dimensions.filterMap Scalar.number?
  | undeclaredState _ cell => cell
  | unassigned count => [(count : Int)]
  | noDimensions | noStart => []

/-- Why a request about a grid fails: it is refused with a report, or the report shows a
number that is too long to be written. -/
inductive Refusal where
  | configuration (fault : ConfigurationFault)
  | unwritable

/-- The refusal for a configuration fault. -/
def ConfigurationFault.refusal (fault : ConfigurationFault) : Refusal :=
  if fault.numbers.all isWritable then .configuration fault else .unwritable

/-- A coordinate that names a cell of a grid of the given extents. No coordinate lies in
an extent that is negative. -/
def checkCoordinate (cell extents : Vec) : Except Refusal Vec :=
  if cell.length ≠ extents.length then
    .error (ConfigurationFault.coordinateRank cell extents.length).refusal
  else if inBounds cell (extents.map Int.toNat) then .ok cell
  else .error (ConfigurationFault.outside cell extents).refusal

/-- A picture of a grid at some generation. -/
structure Snapshot where
  grid : Grid Nat
  registry : Registry
  generation : Nat

namespace Snapshot

/-- The number of cells. -/
def size (snapshot : Snapshot) : Nat :=
  snapshot.grid.cells.size

/-- The name of the state at a coordinate. -/
def get (snapshot : Snapshot) (cell : Vec) : Except Refusal String := do
  let cell ← checkCoordinate cell snapshot.grid.extents
  return snapshot.registry.nameOf (snapshot.grid.getD cell 0)

/-- All cells with the names of their states, in row-major order. -/
def entries (snapshot : Snapshot) : List (Vec × String) :=
  snapshot.grid.entries.map fun (cell, state) => (cell, snapshot.registry.nameOf state)

/-- The number of cells in a state. -/
def count (snapshot : Snapshot) (state : String) : Except LookupFault Nat := do
  let index ← snapshot.registry.index state
  return snapshot.grid.count (· == index)

/-- The cells in a state, in lexicographic order. -/
def cellsIn (snapshot : Snapshot) (state : String) : Except LookupFault (List Vec) := do
  let index ← snapshot.registry.index state
  let cells := (snapshot.grid.entries.filter fun entry => entry.2 == index).map Prod.fst
  return cells.mergeSort Vec.le

/-- Whether two snapshots show the same states in the same cells. When they were
taken does not matter. -/
def same (first second : Snapshot) : Bool :=
  first.registry.names == second.registry.names && first.grid == second.grid

/-- The snapshot as a constructed value. -/
def construction (snapshot : Snapshot) : String :=
  "GridSnapshot(shape=" ++ Text.tuple (snapshot.grid.shape.map toString) ++ ", generation=" ++
    toString snapshot.generation ++ ")"

/-- A text filled up with spaces on the right. -/
def padded (width : Nat) (text : String) : String :=
  text ++ String.ofList (List.replicate (width - text.length) ' ')

/-- The rows of a grid of rank one or two, as names in columns of one width. -/
def rows (snapshot : Snapshot) : List String :=
  let width := (snapshot.registry.names.map String.length).foldl max 0
  let length := snapshot.grid.shape.getLast?.getD 1
  let names := snapshot.grid.cells.toList.map fun state =>
    padded width (snapshot.registry.nameOf state)
  (List.range (snapshot.size / length)).map fun row =>
    " ".intercalate ((names.drop (row * length)).take length)

/-- The snapshot in sentences: its size and generation, the number of cells in every
state, and at will a picture if the rank is at most two. -/
def description (snapshot : Snapshot) (verbose : Bool) : String :=
  let rank := snapshot.grid.shape.length
  let title := toString rank ++ "-dimensional grid of size " ++ crossed snapshot.grid.shape ++
    " at generation " ++ toString snapshot.generation
  let counts := snapshot.registry.states.map fun state =>
    state.name ++ ": " ++ toString (snapshot.grid.count (· == state.index.toNat))
  "\n".intercalate (title :: ", ".intercalate counts ::
    if verbose && rank ≤ 2 then snapshot.rows else [])

end Snapshot

end Cellular
