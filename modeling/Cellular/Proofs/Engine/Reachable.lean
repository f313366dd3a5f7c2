import Cellular.Engine.Memory
import Cellular.Proofs.Engine.Start
import Cellular.Proofs.Engine.Step

/-!
# Engines that can be reached

An engine that is started, stepped and run in any way always has two grids of one shape,
whose rank is that of the program, and its cells hold states of the program. So a step of
an engine that is ready always succeeds, and says for every cell what follows there.
-/

namespace Cellular

/-- The engines that a program gets to by starting, stepping and running, in any order. -/
inductive Reachable (program : Program) : Engine → Prop where
  | fresh : Reachable program { program }
  | started {engine next : Engine} {dimensions : Option (List Scalar)}
      {initial : Option (Table Vec String)} :
      Reachable program engine → engine.start dimensions initial = .ok next →
        Reachable program next
  | stepped {engine next : Engine} :
      Reachable program engine → engine.step = .ok next → Reachable program next
  | ran {engine next : Engine} {generations : Int} {picture : Snapshot} :
      Reachable program engine → engine.run generations = .ok (next, picture) →
        Reachable program next

/-- Two grids that a program can go on from. -/
structure Buffers.Sound (program : Program) (buffers : Buffers) : Prop where
  ranked : buffers.current.shape.length = program.rank
  same : buffers.scratch.shape = buffers.current.shape
  declared : ∀ cell, isCell cell buffers.current.shape →
    buffers.current.getD cell 0 < program.registry.states.length

/-- An engine with a sound program that can go on from its grids, if it has any. -/
structure Engine.Sound (engine : Engine) : Prop where
  program : engine.program.Sound
  buffers : ∀ buffers, engine.buffers = some buffers → buffers.Sound engine.program

theorem Engine.snapshot_eq {engine : Engine} {buffers : Buffers}
    (ready : engine.buffers = some buffers) :
    engine.snapshot = .ok ⟨buffers.current, engine.program.registry, engine.generation⟩ := by
  rw [snapshot, require, requireBuffers, ready]
  rfl

/-! ## Starting -/

theorem Program.length_of_resolveDimensions {program : Program}
    (sized : program.sizes.length = program.rank) {dimensions : Option (List Scalar)}
    {shape : List Nat}
    (done : program.resolveDimensions dimensions = .ok shape) : shape.length = program.rank := by
  cases dimensions with
  | none =>
      simp only [resolveDimensions] at done
      split at done
      · rename_i sizes known
        obtain rfl := Except.ok.inj done
        rw [length_of_mapM_eq_some known, sized]
      · exact absurd done (by simp)
  | some dimensions =>
      simp only [resolveDimensions] at done
      split at done
      · exact absurd done (by simp)
      · rename_i ranked
        split at done
        · rename_i sizes known
          obtain rfl := Except.ok.inj done
          rw [length_of_mapM_eq_some known]
          exact Decidable.not_not.mp ranked
        · exact absurd done (by simp)

namespace Engine

theorem Sound.start {engine next : Engine} (sound : engine.Sound)
    {dimensions : Option (List Scalar)} {initial : Option (Table Vec String)}
    (done : engine.start dimensions initial = .ok next) : next.Sound := by
  rcases bind_eq_ok_iff.mp done with ⟨grid, initialised, done⟩
  rw [mapError_eq_ok_iff] at initialised
  obtain rfl := pure_eq_ok_iff.mp done
  rcases Program.initialGrid_eq_ok initialised with ⟨resolved, shown⟩
  constructor
  · exact sound.program
  · intro buffers known
    obtain rfl := Option.some.inj known
    exact ⟨Program.length_of_resolveDimensions sound.program.sized resolved, rfl, fun cell inside =>
      (shown cell inside).1⟩

/-! ## Stepping -/

/-- The engine after a step from the given grid, which becomes the scratch grid. -/
def after (engine : Engine) (grid : Grid Nat) : Engine :=
  { engine with
    buffers := some ⟨engine.program.successor grid, grid⟩
    generation := engine.generation + 1 }

/-- A step of an engine that is ready always succeeds. -/
theorem Sound.step_eq {engine : Engine} (sound : engine.Sound) {buffers : Buffers}
    (ready : engine.buffers = some buffers) :
    engine.step = .ok (engine.after buffers.current) := by
  have buffered := sound.buffers buffers ready
  rw [Engine.step, requireBuffers, ready]
  simp only [bind, Except.bind]
  rw [Program.nextGrid_eq sound.program buffered.ranked buffered.same]
  rfl

theorem Sound.after {engine : Engine} (sound : engine.Sound) {buffers : Buffers}
    (ready : engine.buffers = some buffers) : (engine.after buffers.current).Sound := by
  have buffered := sound.buffers buffers ready
  constructor
  · exact sound.program
  · intro others known
    obtain rfl := Option.some.inj known
    refine ⟨buffered.ranked, rfl, ?_⟩
    intro cell inside
    have inside' : isCell cell buffers.current.shape := inside
    change (engine.program.successor buffers.current).getD cell 0 < _
    rw [Program.getD_successor _ inside']
    exact sound.program.follower_lt (buffered.declared cell inside') _

theorem Sound.step {engine next : Engine} (sound : engine.Sound)
    (done : engine.step = .ok next) : next.Sound := by
  cases ready : engine.buffers with
  | none =>
      rw [Engine.step, requireBuffers, ready] at done
      exact absurd done (by simp [bind, Except.bind])
  | some buffers =>
      rw [sound.step_eq ready] at done
      obtain rfl := Except.ok.inj done
      exact sound.after ready

theorem Sound.steps {engine next : Engine} (sound : engine.Sound) {n : Nat}
    (done : engine.steps n = .ok next) : next.Sound := by
  induction n generalizing engine with
  | zero =>
      obtain rfl := Except.ok.inj done
      exact sound
  | succ n ih =>
      rcases bind_eq_ok_iff.mp done with ⟨between, first, done⟩
      exact ih (sound.step first) done

theorem Sound.run {engine next : Engine} (sound : engine.Sound) {generations : Int}
    {picture : Snapshot} (done : engine.run generations = .ok (next, picture)) : next.Sound := by
  rcases bind_eq_ok_iff.mp done with ⟨other, ran, done⟩
  rcases bind_eq_ok_iff.mp done with ⟨_, _, done⟩
  rcases Prod.mk.inj (pure_eq_ok_iff.mp done) with ⟨rfl, _⟩
  exact sound.steps ran

/-! ## In finite memory -/

section Memory

variable {memory : Nat}

theorem requireRoom_eq_ok_iff {missing : Option CapacityFault} :
    requireRoom missing = .ok () ↔ missing = none := by
  cases missing <;> simp [requireRoom]

/-- If the grid can be stored, memory makes no difference to a start. -/
theorem startInMemory_of_room {engine : Engine} {dimensions : Option (List Scalar)}
    {initial : Option (Table Vec String)}
    (room : ∀ shape, engine.program.newShape dimensions initial = .ok shape →
      storageFault? memory cellBytes shape = none) :
    engine.startInMemory memory dimensions initial = engine.start dimensions initial := by
  rw [startInMemory]
  cases shaped : engine.program.newShape dimensions initial with
  | ok shape =>
      have roomy := requireRoom_eq_ok_iff.mpr (room shape shaped)
      simp only [Except.mapError, ok_bind, roomy]
  | error fault =>
      rw [start, Program.initialGrid, shaped]
      rfl

theorem start_of_startInMemory {engine next : Engine} {dimensions : Option (List Scalar)}
    {initial : Option (Table Vec String)}
    (done : engine.startInMemory memory dimensions initial = .ok next) :
    engine.start dimensions initial = .ok next := by
  rcases bind_eq_ok_iff.mp done with ⟨_, _, done⟩
  rcases bind_eq_ok_iff.mp done with ⟨_, _, done⟩
  exact done

/-- A step in finite memory asks for room and then is a step. -/
theorem stepInMemory_of_ready {engine : Engine} {buffers : Buffers}
    (ready : engine.buffers = some buffers) :
    engine.stepInMemory memory =
      (requireRoom (engine.program.countFault? memory buffers.current.shape
        engine.program.census) >>= fun _ => engine.step) := by
  rw [stepInMemory, require, requireBuffers, ready]
  rfl

theorem step_of_stepInMemory {engine next : Engine} (done : engine.stepInMemory memory = .ok next) :
    engine.step = .ok next := by
  rcases bind_eq_ok_iff.mp done with ⟨_, _, done⟩
  rcases bind_eq_ok_iff.mp done with ⟨_, _, done⟩
  exact done

end Memory

end Engine

/-! ## The program of an engine -/

namespace Engine

theorem program_of_start {engine next : Engine} {dimensions : Option (List Scalar)}
    {initial : Option (Table Vec String)} (done : engine.start dimensions initial = .ok next) :
    next.program = engine.program := by
  rcases bind_eq_ok_iff.mp done with ⟨_, _, done⟩
  obtain rfl := pure_eq_ok_iff.mp done
  rfl

theorem program_of_step {engine next : Engine} (done : engine.step = .ok next) :
    next.program = engine.program := by
  rcases bind_eq_ok_iff.mp done with ⟨_, _, done⟩
  rcases bind_eq_ok_iff.mp done with ⟨_, _, done⟩
  obtain rfl := pure_eq_ok_iff.mp done
  rfl

theorem program_of_steps {engine next : Engine} {n : Nat} (done : engine.steps n = .ok next) :
    next.program = engine.program := by
  induction n generalizing engine with
  | zero =>
      obtain rfl := Except.ok.inj done
      rfl
  | succ n ih =>
      rcases bind_eq_ok_iff.mp done with ⟨between, first, done⟩
      rw [ih done, program_of_step first]

theorem program_of_run {engine next : Engine} {generations : Int} {picture : Snapshot}
    (done : engine.run generations = .ok (next, picture)) : next.program = engine.program := by
  rcases bind_eq_ok_iff.mp done with ⟨other, ran, done⟩
  rcases bind_eq_ok_iff.mp done with ⟨_, _, done⟩
  rcases Prod.mk.inj (pure_eq_ok_iff.mp done) with ⟨rfl, _⟩
  exact program_of_steps ran

end Engine

theorem Reachable.program_eq {program : Program} {engine : Engine}
    (reachable : Reachable program engine) : engine.program = program := by
  induction reachable with
  | fresh => rfl
  | started _ done ih => rw [Engine.program_of_start done, ih]
  | stepped _ done ih => rw [Engine.program_of_step done, ih]
  | ran _ done ih => rw [Engine.program_of_run done, ih]

/-! ## Soundness -/

/-- The engines of a sound program stay sound. -/
theorem Reachable.sound {program : Program} (sound : program.Sound) {engine : Engine}
    (reachable : Reachable program engine) : engine.Sound := by
  induction reachable with
  | fresh => exact ⟨sound, fun _ known => absurd known (by simp)⟩
  | started _ done ih => exact ih.start done
  | stepped _ done ih => exact ih.step done
  | ran _ done ih => exact ih.run done

end Cellular
