import Cellular.Engine.History
import Cellular.Proofs.Engine.Reachable
import Mathlib.Logic.Function.Iterate

/-!
# How a grid evolves

An engine may be put on any grid of the rank of its program, whether or not the numbers in
its cells are states of the program. From there a number of steps always leads to one grid,
the iterated successor of the first, and a history shows these successors one by one. So two
runs are compared by comparing successors, and for these only the value of a cell and the
states of its neighbours count, in any order.
-/

namespace Cellular

/-! ## Runs from a grid -/

/-- An engine of a program whose current grid is the given one. What the scratch grid holds
does not matter. -/
structure Engine.IsOn (engine : Engine) (program : Program) (grid : Grid Nat) : Prop where
  program : engine.program = program
  buffers : ∃ scratch : Grid Nat,
    engine.buffers = some ⟨grid, scratch⟩ ∧ scratch.shape = grid.shape

/-- Some steps of an engine succeed and lead to a grid. In finite memory, however much there
is, they lead to the same engine, or fail for want of room. -/
def Engine.Arrives (engine : Engine) (n : Nat) (grid : Grid Nat) : Prop :=
  ∃ later, engine.steps n = .ok later ∧ later.current = some grid ∧
    ∀ memory other, engine.stepsInMemory memory n = .ok other → other = later

namespace Engine

variable {program : Program} {grid : Grid Nat} {engine : Engine}

theorem steps_of_stepsInMemory {memory : Nat} {next : Engine} {n : Nat}
    (done : engine.stepsInMemory memory n = .ok next) : engine.steps n = .ok next := by
  induction n generalizing engine with
  | zero => exact done
  | succ n ih =>
      rcases bind_eq_ok_iff.mp done with ⟨between, first, done⟩
      rw [steps, step_of_stepInMemory first]
      exact ih done

theorem IsOn.current (on : engine.IsOn program grid) : engine.current = some grid := by
  rcases on.buffers with ⟨scratch, ready, _⟩
  rw [Engine.current, ready]
  rfl

theorem IsOn.snapshot_eq (on : engine.IsOn program grid) :
    engine.snapshot = .ok ⟨grid, program.registry, engine.generation⟩ := by
  rcases on with ⟨rfl, scratch, ready, _⟩
  exact Engine.snapshot_eq ready

theorem IsOn.after (on : engine.IsOn program grid) :
    (engine.after grid).IsOn program (program.successor grid) := by
  obtain ⟨rfl, _⟩ := on
  exact ⟨rfl, grid, rfl, rfl⟩

theorem IsOn.step_eq (sound : program.Sound) (on : engine.IsOn program grid)
    (ranked : grid.shape.length = program.rank) : engine.step = .ok (engine.after grid) := by
  obtain ⟨rfl, scratch, ready, same⟩ := on
  rw [Engine.step, requireBuffers, ready]
  simp only [bind, Except.bind]
  rw [Program.nextGrid_eq sound ranked same]
  rfl

/-- One step leads from a grid to its successor. -/
theorem IsOn.step (sound : program.Sound) (on : engine.IsOn program grid)
    (ranked : grid.shape.length = program.rank) :
    ∃ next, engine.step = .ok next ∧ next.IsOn program (program.successor grid) :=
  ⟨_, on.step_eq sound ranked, on.after⟩

theorem IsOn.steps (sound : program.Sound) (on : engine.IsOn program grid)
    (ranked : grid.shape.length = program.rank) (n : Nat) :
    ∃ later, engine.steps n = .ok later ∧ later.IsOn program (program.successor^[n] grid) := by
  induction n generalizing engine grid with
  | zero => exact ⟨engine, rfl, on⟩
  | succ n ih =>
      rcases on.step sound ranked with ⟨next, stepped, onNext⟩
      rcases ih onNext ranked with ⟨later, done, onLater⟩
      refine ⟨later, ?_, onLater⟩
      rw [Engine.steps, stepped]
      exact done

/-- Some steps lead from a grid to its iterated successor. -/
theorem IsOn.arrives (sound : program.Sound) (on : engine.IsOn program grid)
    (ranked : grid.shape.length = program.rank) (n : Nat) :
    engine.Arrives n (program.successor^[n] grid) := by
  rcases on.steps sound ranked n with ⟨later, done, onLater⟩
  refine ⟨later, done, onLater.current, ?_⟩
  intro memory other stepped
  exact Except.ok.inj ((steps_of_stepsInMemory stepped).symm.trans done)

/-- A history shows the iterated successors one after the other. -/
theorem IsOn.exists_history (sound : program.Sound) (on : engine.IsOn program grid)
    (ranked : grid.shape.length = program.rank) (n : Nat) :
    ∃ history, engine.history n = .ok history ∧ history.length = n + 1 ∧
      ∀ i (picture : Snapshot), history[i]? = some picture →
        picture = ⟨program.successor^[i] grid, program.registry, engine.generation + i⟩ := by
  induction n generalizing engine grid with
  | zero =>
      have done : engine.history 0 = .ok [⟨grid, program.registry, engine.generation⟩] := by
        rw [history, on.snapshot_eq, ok_bind, pure_eq_ok]
      use [⟨grid, program.registry, engine.generation⟩], done, rfl
      intro i picture found
      cases i with
      | zero => exact (Option.some.inj found).symm
      | succ i => cases found
  | succ n ih =>
      rcases ih on.after ranked with ⟨rest, later, length, shown⟩
      have done : engine.history (n + 1) =
          .ok (⟨grid, program.registry, engine.generation⟩ :: rest) := by
        rw [history, on.snapshot_eq, on.step_eq sound ranked, ok_bind, ok_bind, later, ok_bind,
          pure_eq_ok]
      use ⟨grid, program.registry, engine.generation⟩ :: rest, done, congrArg Nat.succ length
      intro i picture found
      cases i with
      | zero => exact (Option.some.inj found).symm
      | succ i =>
          rw [← Nat.add_assoc, Nat.add_right_comm]
          exact shown i picture found

/-- Where there is room for one step, or no step is taken, memory makes no difference to a
history. -/
theorem IsOn.historyInMemory_eq (sound : program.Sound) (on : engine.IsOn program grid)
    (ranked : grid.shape.length = program.rank) {memory n : Nat}
    (room : n = 0 ∨ program.countFault? memory grid.shape program.census = none) :
    engine.historyInMemory memory n = engine.history n := by
  induction n generalizing engine grid with
  | zero => rfl
  | succ n ih =>
      have roomy := room.resolve_left (Nat.succ_ne_zero n)
      have stepped := on.step_eq sound ranked
      have bounded : engine.stepInMemory memory = .ok (engine.after grid) := by
        rcases on with ⟨rfl, scratch, ready, _⟩
        rw [stepInMemory_of_ready ready, roomy]
        exact stepped
      rw [historyInMemory, history, on.snapshot_eq, bounded, stepped, ok_bind, ok_bind, ok_bind,
        ok_bind, ih on.after ranked (Or.inr roomy)]

end Engine

theorem Program.shape_iterate_successor (program : Program) (grid : Grid Nat) (n : Nat) :
    (program.successor^[n] grid).shape = grid.shape := by
  induction n generalizing grid with
  | zero => rfl
  | succ n ih => exact ih (program.successor grid)

/-! ## Cells that evolve alike -/

namespace Program

variable (program : Program) {grid other : Grid Nat} {cell place : Vec}

theorem get?_successor (grid : Grid Nat) (cell : Vec) :
    (program.successor grid).get? cell =
      (grid.get? cell).map (program.follower (program.keptCountsAt grid cell)) := by
  rw [successor, Grid.get?_ofFn]
  by_cases inside : isCell cell grid.shape
  · rw [if_pos inside, Grid.get?_eq_some_getD inside 0, Option.map_some]
  · rw [if_neg inside, Grid.get?_eq_none inside, Option.map_none]

/-- What follows at a cell depends on its own state and on the states of its neighbours, not
on the order in which these are met, nor on anything else. -/
theorem get?_successor_eq (state : other.get? place = grid.get? cell)
    (around : (program.neighbors other place).Perm (program.neighbors grid cell)) :
    (program.successor other).get? place = (program.successor grid).get? cell := by
  have counts : program.keptCountsAt other place = program.keptCountsAt grid cell := by
    funext index
    exact congrArg keptCount (around.count_eq index)
  rw [get?_successor, get?_successor, state, counts]

end Program

end Cellular
