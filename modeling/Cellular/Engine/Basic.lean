import Cellular.Engine.Snapshot
import Cellular.Space.Capacity

/-!
# Engines

An engine runs a program on a grid. It has no grid until it is initialised, and no
operation that fails changes it.

A step computes the next state of every cell from the grid as it was before the
step, for the whole grid at once: the neighbours are shifted copies of the grid, the
counts of every state that matters are grids of their own, and the clauses of a state
claim the cells that are still pending where their conditions hold. The next grid is
written into a second grid, and then the two change places. `nextState` computes the
same for one cell from its neighbours alone.
-/

namespace Cellular

/-- The two grids of a run: the one that is current, and the one that the next step is
written into. -/
structure Buffers where
  current : Grid Nat
  scratch : Grid Nat

/-- A program and the grids it runs on. -/
structure Engine where
  program : Program
  buffers : Option Buffers := none
  generation : Nat := 0

/-- The grid that an engine runs on, if it has one. -/
def Engine.current (engine : Engine) : Option (Grid Nat) :=
  engine.buffers.map Buffers.current

/-- Why an engine cannot do what it is asked. -/
inductive EngineFault where
  | notReady (task : String)
  | refused (refusal : Refusal)
  | transition (fault : TransitionFault)
  | capacity (fault : CapacityFault)

/-! ## Setting up a grid -/

/-- An extent as the size of an axis: a whole number, at least one. -/
def Scalar.size? : Scalar → Option Nat
  | .whole n => if 1 ≤ n then some n.toNat else none
  | _ => none

namespace Program

/-- The shape of a new grid: the given one, or the declared one. -/
def resolveDimensions (program : Program) (dimensions : Option (List Scalar)) :
    Except Refusal (List Nat) :=
  match dimensions with
  | none => match program.sizes.mapM id with
    | some shape => .ok shape
    | none => .error ConfigurationFault.noDimensions.refusal
  | some dimensions =>
    if dimensions.length ≠ program.rank then
      .error (ConfigurationFault.gridRank dimensions.length program.rank).refusal
    else match dimensions.mapM Scalar.size? with
      | some shape => .ok shape
      | none => .error (ConfigurationFault.notPositive dimensions).refusal

/-- The shape of a new grid whose cells all get a state: there must be a default or an
initial assignment. -/
def newShape (program : Program) (dimensions : Option (List Scalar))
    (initial : Option (Table Vec String)) : Except Refusal (List Nat) := do
  let shape ← program.resolveDimensions dimensions
  if program.registry.default?.isNone && initial.isNone then
    throw ConfigurationFault.noStart.refusal
  return shape

/-- Puts a named state into a cell. -/
def place (program : Program) (grid : Grid (Option Nat)) (entry : Vec × String) :
    Except Refusal (Grid (Option Nat)) := do
  let cell ← checkCoordinate entry.1 grid.extents
  match program.registry.indexOf? entry.2 with
  | some index => return grid.set cell (some index)
  | none => throw (ConfigurationFault.undeclaredState entry.2 cell).refusal

/-- The first grid of a run. Cells without a state of their own get the default
state; without a default, every cell needs a state of its own. -/
def initialGrid (program : Program) (dimensions : Option (List Scalar))
    (initial : Option (Table Vec String)) : Except Refusal (Grid Nat) := do
  let shape ← program.newShape dimensions initial
  let default := program.registry.default?.map fun state => state.index.toNat
  let entries := (initial.map Table.entries).getD []
  let grid ← entries.foldlM program.place (Grid.fill shape default)
  match grid.allSome? with
  | some grid => return grid
  | none => throw (ConfigurationFault.unassigned (grid.count Option.isNone)).refusal

/-! ## Neighbours -/

/-- The states of the neighbours of a cell. -/
def neighbors (program : Program) (grid : Grid Nat) (cell : Vec) : List Nat :=
  program.offsets.filterMap fun offset => program.boundary.neighborState grid cell offset

/-- For every cell the number of copies that show a state there, as far as a cell can
count: the copies are added up one after the other, each where it shows the state. -/
def countGrid (shape : List Nat) (copies : List (Grid (Option Nat))) (state : Nat) : Grid Int :=
  Grid.ofFn shape fun cell => copies.foldl
    (fun kept copy => if copy.getD cell none == some state then cellAfter kept else kept) 0

/-- The counts of the given states on a whole grid. -/
def countGrids (program : Program) (grid : Grid Nat) (states : List Nat) :
    List (Nat × Grid Int) :=
  let copies := program.boundary.neighborGrids grid program.offsets
  states.map fun state => (state, countGrid grid.shape copies state)

/-! ## One step of the whole grid -/

/-- The next grid as far as it is known, and the cells that still wait for a clause. -/
structure Pending where
  next : Grid Nat
  cells : Grid Bool

/-- One clause claims the pending cells where its condition holds. A mask of rank zero, such
as that of a node without operands, speaks of every cell. -/
def claim (counts : Nat → Option (Grid Int)) (pending : Pending) (clause : Clause) :
    Except (EvaluationFault Nat) Pending := do
  let mask ← clause.condition.mask counts pending.next.shape
  let fires (cell : Vec) : Bool := pending.cells.getD cell false && mask.spread cell false
  return {
    next := Grid.ofFn pending.next.shape fun cell =>
      if fires cell then clause.target else pending.next.getD cell 0
    cells := Grid.ofFn pending.next.shape fun cell =>
      pending.cells.getD cell false && !mask.spread cell false }

/-- Clauses claim cells in turn, until no cell is pending any more. -/
def claimInTurn (counts : Nat → Option (Grid Int)) (pending : Pending) :
    List Clause → Except (EvaluationFault Nat) Pending
  | [] => .ok pending
  | clause :: rest =>
    if pending.cells.count id = 0 then .ok pending
    else do claimInTurn counts (← claim counts pending clause) rest

/-- The clauses of one state claim the cells that hold it. -/
def claimAll (counts : Nat → Option (Grid Int)) (grid next : Grid Nat) (state : Nat)
    (clauses : List Clause) : Except (EvaluationFault Nat) (Grid Nat) := do
  return (← claimInTurn counts ⟨next, grid.map (· == state)⟩ clauses).next

/-- The grid after one step: the scratch grid becomes a copy of the current one, and the
clauses of every state claim the cells that hold it. -/
def nextGrid (program : Program) (buffers : Buffers) : Except (EvaluationFault Nat) (Grid Nat) :=
  let counted := program.countGrids buffers.current program.census
  program.clauses.zipIdx.foldlM
    (fun next (clauses, state) =>
      claimAll (counted.lookup ·) buffers.current next state clauses)
    (buffers.scratch.overwrite buffers.current)

end Program

namespace Engine

/-- Whether the engine has a grid. -/
def isReady (engine : Engine) : Bool :=
  engine.current.isSome

/-- The grids of a ready engine. -/
def requireBuffers (engine : Engine) (task : String) : Except EngineFault Buffers :=
  match engine.buffers with
  | some buffers => .ok buffers
  | none => .error (.notReady task)

/-- The current grid of a ready engine. -/
def require (engine : Engine) (task : String) : Except EngineFault (Grid Nat) :=
  (engine.requireBuffers task).map Buffers.current

/-- Starts over with a new grid. What the scratch grid holds at first does not matter. -/
def start (engine : Engine) (dimensions : Option (List Scalar))
    (initial : Option (Table Vec String)) : Except EngineFault Engine := do
  let grid ← (engine.program.initialGrid dimensions initial).mapError .refused
  return { engine with buffers := some ⟨grid, Grid.fill grid.shape 0⟩, generation := 0 }

/-- Advances the grid by one generation. The grid of the last generation becomes the
scratch grid. -/
def step (engine : Engine) : Except EngineFault Engine := do
  let buffers ← engine.requireBuffers "step"
  let next ← (engine.program.nextGrid buffers).mapError fun fault =>
    .transition (.evaluation fault)
  return { engine with
    buffers := some ⟨next, buffers.current⟩, generation := engine.generation + 1 }

/-- Advances the grid by some generations. -/
def steps (engine : Engine) : Nat → Except EngineFault Engine
  | 0 => .ok engine
  | n + 1 => do (← engine.step).steps n

/-- The picture of the current grid. -/
def snapshot (engine : Engine) : Except EngineFault Snapshot := do
  return ⟨← engine.require "read the grid", engine.program.registry, engine.generation⟩

/-- Advances the grid by a number of generations, none if it is negative, and takes a
picture. -/
def run (engine : Engine) (generations : Int) : Except EngineFault (Engine × Snapshot) := do
  let engine ← engine.steps generations.toNat
  return (engine, ← engine.snapshot)

/-- The neighbour counts of every state on the whole grid, by name. -/
def neighborCounts (engine : Engine) : Except EngineFault (List (String × Grid Int)) := do
  let grid ← engine.require "count neighbours"
  let registry := engine.program.registry
  return (engine.program.countGrids grid (List.range registry.states.length)).map
    fun (state, counts) => (registry.nameOf state, counts)

/-- The states that neighbours of a cell have, in order, with their numbers. -/
def cellCounts (engine : Engine) (cell : Vec) : Except EngineFault (List (Nat × Nat)) := do
  let grid ← engine.require "count neighbours"
  let cell ← (checkCoordinate cell grid.extents).mapError .refused
  let neighbors := engine.program.neighbors grid cell
  return (sortedSet Nat.ble neighbors).map fun state => (state, neighbors.count state)

/-- The name of the state that a cell will have after the next step. -/
def nextState (engine : Engine) (cell : Vec) : Except EngineFault String := do
  let grid ← engine.require "evaluate a cell"
  let cell ← (checkCoordinate cell grid.extents).mapError .refused
  let neighbors := engine.program.neighbors grid cell
  let target ← (engine.program.transition (grid.getD cell 0) fun state =>
    neighbors.count state).mapError .transition
  return engine.program.registry.nameOf target.toNat

/-- The engine in sentences. -/
def description (engine : Engine) (verbose : Bool) : String :=
  match engine.snapshot with
  | .ok snapshot => snapshot.description verbose
  | .error _ => "Uninitialized grid engine"

end Engine

end Cellular
