import Cellular.Proofs.Engine.Evolution
import Cellular.Proofs.Engine.Prediction

/-!
# How far a cell sees

What a cell holds after some steps was decided by the cells that it reaches with as many
moves along the offsets of the program, or with fewer. A move that leaves the grid ends on a
torus at the other side, and otherwise nowhere: what lies beyond the edge is the same for all
grids.
-/

namespace Cellular

/-! ## Moves -/

namespace Boundary

/-- Where an offset leads from a cell of a grid of the given shape. -/
def destination {σ : Type} (boundary : Boundary σ) (shape : List Nat) (cell offset : Vec) : Vec :=
  match boundary with
  | wrap => wrapInto (Vec.add cell offset) shape
  | void | static _ => Vec.add cell offset

/-- A neighbour is the cell that the offset leads to, if there is one; otherwise it does not
depend on the grid. -/
theorem neighborState_eq {σ : Type} (boundary : Boundary σ) (grid : Grid σ) (cell offset : Vec) :
    boundary.neighborState grid cell offset =
      if isCell (boundary.destination grid.shape cell offset) grid.shape then
        grid.get? (boundary.destination grid.shape cell offset)
      else boundary.frame := by
  split
  · rename_i inside
    cases boundary with
    | void | wrap => rfl
    | static state => rw [neighborState, Grid.get?_eq_some_getD inside state]; rfl
  · rename_i outside
    cases boundary with
    | void | wrap => exact Grid.get?_eq_none outside
    | static state => exact congrArg some (Grid.getD_of_not_isCell outside state)

end Boundary

namespace Program

/-- The cells that are reached from a cell in a number of moves along offsets of the program
that all end on the grid. -/
inductive Walk (program : Program) (shape : List Nat) (start : Vec) : Nat → Vec → Prop
  | here : Walk program shape start 0 start
  | move {n : Nat} {between offset : Vec} (walk : Walk program shape start n between)
      (member : offset ∈ program.offsets)
      (inside : isCell (program.boundary.destination shape between offset) shape) :
      Walk program shape start (n + 1) (program.boundary.destination shape between offset)

variable (program : Program) {grid other : Grid Nat}

/-- Grids that agree at a cell and one move around it agree at this cell after a step. -/
theorem get?_successor_of_moves (shape : grid.shape = other.shape) {cell : Vec}
    (here : grid.get? cell = other.get? cell)
    (around : ∀ offset ∈ program.offsets,
      isCell (program.boundary.destination grid.shape cell offset) grid.shape →
        grid.get? (program.boundary.destination grid.shape cell offset) =
          other.get? (program.boundary.destination grid.shape cell offset)) :
    (program.successor grid).get? cell = (program.successor other).get? cell := by
  apply program.get?_successor_eq here
  have same : program.neighbors grid cell = program.neighbors other cell := by
    apply List.filterMap_congr
    intro offset member
    rw [Boundary.neighborState_eq, Boundary.neighborState_eq, ← shape]
    split
    · rename_i inside
      exact around offset member inside
    · rfl
  rw [same]

/-- Grids that agree wherever a walk of at most some moves leads agree at its start after as
many steps. -/
theorem get?_iterate_of_walk (k : Nat) (shape : grid.shape = other.shape) {cell : Vec}
    (agree : ∀ n ≤ k, ∀ reached, program.Walk grid.shape cell n reached →
      grid.get? reached = other.get? reached) :
    (program.successor^[k] grid).get? cell = (program.successor^[k] other).get? cell := by
  induction k generalizing grid other with
  | zero => exact agree 0 (Nat.le_refl 0) cell .here
  | succ k ih =>
      rw [Function.iterate_succ_apply, Function.iterate_succ_apply]
      have shape' : (program.successor grid).shape = (program.successor other).shape := shape
      apply ih shape'
      intro n bound reached walk
      apply program.get?_successor_of_moves shape (agree n (Nat.le_succ_of_le bound) reached walk)
      intro offset member inside
      exact agree (n + 1) (Nat.succ_le_succ bound) _ (.move walk member inside)

end Program

/-! ## Runs -/

/-- Two runs of a loaded program agree after some steps at every cell from which no walk of at
most as many moves leads to a cell where their first grids differ. -/
theorem steps_agree_of_walk {source : String} {program : Program}
    (loaded : load source = .ok program) {grid other : Grid Nat}
    (ranked : grid.shape.length = program.rank) (shape : grid.shape = other.shape)
    {engine engine' : Engine} (on : engine.IsOn program grid) (on' : engine'.IsOn program other)
    (k : Nat) :
    ∃ last last', engine.Arrives k last ∧ engine'.Arrives k last' ∧
      ∀ cell, (∀ n ≤ k, ∀ reached, program.Walk grid.shape cell n reached →
        grid.get? reached = other.get? reached) → last.get? cell = last'.get? cell := by
  rcases loaded_of_load loaded with ⟨_, _, _, origin⟩
  refine ⟨_, _, on.arrives origin.sound ranked k,
    on'.arrives origin.sound (shape ▸ ranked) k, ?_⟩
  intro cell agree
  exact program.get?_iterate_of_walk k shape agree

/-- On a ring of three cells the first cell sees the second with one move, but not the
third. -/
theorem steps_agree_of_walk_ring : ∃ (program : Program) (engine engine' : Engine)
    (grid other last last' : Grid Nat), load ringSource = .ok program ∧
      engine.IsOn program grid ∧ engine'.IsOn program other ∧ grid.get? [2] ≠ other.get? [2] ∧
      engine.Arrives 1 last ∧ engine'.Arrives 1 last' ∧ last.get? [0] = last'.get? [0] := by
  rcases load_ring with ⟨program, _, loaded, ⟨rank, torus, offsets⟩, _⟩
  let grid : Grid Nat := ⟨[3], #[0, 0, 0], rfl⟩
  let other : Grid Nat := ⟨[3], #[0, 0, 1], rfl⟩
  let engine (grid : Grid Nat) : Engine := { program, buffers := some ⟨grid, grid⟩ }
  have on (grid : Grid Nat) : (engine grid).IsOn program grid := ⟨rfl, grid, rfl, rfl⟩
  have ranked : grid.shape.length = program.rank := rank.symm
  have shape : grid.shape = other.shape := rfl
  obtain ⟨last, last', arrives, arrives', agree⟩ :=
    steps_agree_of_walk loaded ranked shape (on grid) (on other) 1
  refine ⟨program, engine grid, engine other, grid, other, last, last', loaded, on _, on _,
    by decide, arrives, arrives', agree [0] ?_⟩
  intro n bound reached walk
  cases walk with
  | here => decide
  | @move n between offset walk member inside =>
      obtain rfl : n = 0 := by omega
      cases walk
      rw [offsets, List.mem_singleton] at member
      rw [member, torus]
      decide

end Cellular
