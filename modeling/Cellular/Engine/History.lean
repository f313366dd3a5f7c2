import Cellular.Engine.Basic
import Cellular.Program.Load

/-!
# Histories

The history of an engine over some generations is the picture of its grid at every
one of them, the present one first. A simulation loads a program and gives the
history of its first grid.
-/

namespace Cellular

/-- The snapshots of the present generation and of the next ones. -/
def Engine.history (engine : Engine) : Nat → Except EngineFault (List Snapshot)
  | 0 => do return [← engine.snapshot]
  | generations + 1 => do
    let present ← engine.snapshot
    return present :: (← (← engine.step).history generations)

/-- Why a simulation has no history. -/
inductive SimulationFault where
  | load (fault : LoadFault)
  | engine (fault : EngineFault)

/-- The history of a source text from its first grid on. A negative number of
generations counts as none. -/
def simulate (source : String) (generations : Int) (dimensions : Option (List Scalar))
    (initial : Option (Table Vec String)) : Except SimulationFault (List Snapshot) := do
  let program ← (load source).mapError .load
  let engine ← (Engine.start { program } dimensions initial).mapError .engine
  (engine.history generations.toNat).mapError .engine

end Cellular
