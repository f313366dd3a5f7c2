import Cellular.Engine.History
import Cellular.Program.Memory
import Cellular.Space.Query

/-!
# Engines in finite memory

What an engine computes does not depend on memory, but a machine can only start a grid
and count neighbours in it if there is room for all that has to be stored. The operations
here are given the number of bytes that there are. They first ask for the room that they
need, and do what the operations of an engine do if there is enough of it. Counting takes
a frame that is wide enough for every offset; if no state is counted, it takes nothing.
-/

namespace Cellular

/-- What is missing in so much memory to count the given states in a grid of the given
shape. -/
def Program.countFault? (memory : Nat) (program : Program) (shape states : List Nat) :
    Option CapacityFault :=
  if states.isEmpty then none else program.boundary.roomFault? memory shape program.offsets

namespace Engine

/-- Nothing may be missing. -/
def requireRoom : Option CapacityFault → Except EngineFault Unit
  | some fault => .error (.capacity fault)
  | none => .ok ()

section Memory

variable (memory : Nat)

/-- Starts over with a new grid, if it can be stored. -/
def startInMemory (engine : Engine) (dimensions : Option (List Scalar))
    (initial : Option (Table Vec String)) : Except EngineFault Engine := do
  let shape ← (engine.program.newShape dimensions initial).mapError .refused
  requireRoom (storageFault? memory cellBytes shape)
  engine.start dimensions initial

/-- Advances the grid by one generation, if there is room for the counts of the states
that matter. -/
def stepInMemory (engine : Engine) : Except EngineFault Engine := do
  let grid ← engine.require "step"
  requireRoom (engine.program.countFault? memory grid.shape engine.program.census)
  engine.step

/-- Advances the grid by some generations. -/
def stepsInMemory (engine : Engine) : Nat → Except EngineFault Engine
  | 0 => .ok engine
  | n + 1 => do (← engine.stepInMemory memory).stepsInMemory n

/-- Advances the grid by a number of generations, none if it is negative, and takes a
picture. -/
def runInMemory (engine : Engine) (generations : Int) :
    Except EngineFault (Engine × Snapshot) := do
  let engine ← engine.stepsInMemory memory generations.toNat
  return (engine, ← engine.snapshot)

/-- The neighbour counts of every state on the whole grid, if there is room for them. -/
def neighborCountsInMemory (engine : Engine) :
    Except EngineFault (List (String × Grid Int)) := do
  let grid ← engine.require "count neighbours"
  let states := List.range engine.program.registry.states.length
  requireRoom (engine.program.countFault? memory grid.shape states)
  engine.neighborCounts

/-- The snapshots of the present generation and of the next ones. -/
def historyInMemory (engine : Engine) : Nat → Except EngineFault (List Snapshot)
  | 0 => do return [← engine.snapshot]
  | generations + 1 => do
    let present ← engine.snapshot
    return present :: (← (← engine.stepInMemory memory).historyInMemory generations)

end Memory

end Engine

/-- The history of a source text from its first grid on, in so much memory. A negative
number of generations counts as none. -/
def simulateInMemory (memory : Nat) (source : String) (generations : Int)
    (dimensions : Option (List Scalar)) (initial : Option (Table Vec String)) :
    Except SimulationFault (List Snapshot) := do
  let program ← (loadInMemory memory source).mapError .load
  let engine ← (Engine.startInMemory memory { program } dimensions initial).mapError .engine
  (engine.historyInMemory memory generations.toNat).mapError .engine

end Cellular
