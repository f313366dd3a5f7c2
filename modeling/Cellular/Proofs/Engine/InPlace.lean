import Cellular.Proofs.Engine.Reachable

/-!
# Engines that are changed in place

An engine may be asked for one thing after another. Here this is done in place: an
operation assigns the grids and the generation of the one engine there is, one assignment
after the other, and what it assigned before it fails stays assigned. That a failure
changes nothing is then something to be proved: an engine is only assigned when nothing can
fail any more, and of the steps of a run only the first can fail.

There may be so many bytes of memory, or as many as it takes. If their number is given, the
operations first ask for the room they need.
-/

namespace Cellular

/-! ## Calls -/

/-- What an engine may be asked for. -/
inductive Call where
  | start (dimensions : Option (List Scalar)) (initial : Option (Table Vec String))
  | step
  | run (generations : Int)
  | nextState (cell : Vec)
  | cellCounts (cell : Vec)
  | neighborCounts
  | currentGrid

/-- What an engine answers. -/
inductive Answer where
  | done
  | picture (snapshot : Snapshot)
  | name (state : String)
  | counts (counts : List (Nat × Nat))
  | countGrids (counts : List (String × Grid Int))

/-- What is missing to count the given states, in so much memory or in as much as it takes. -/
def Program.countFaultWithin? (memory : Option Nat) (program : Program)
    (shape states : List Nat) : Option CapacityFault :=
  memory.bind fun bytes => program.countFault? bytes shape states

namespace Engine

/-! ## Computing what follows -/

section Memory

variable (memory : Option Nat)

/-- A new grid, in so much memory or in as much as it takes. -/
def startWithin (engine : Engine) (dimensions : Option (List Scalar))
    (initial : Option (Table Vec String)) : Except EngineFault Engine :=
  match memory with
  | some bytes => engine.startInMemory bytes dimensions initial
  | none => engine.start dimensions initial

/-- One step, in so much memory or in as much as it takes. -/
def stepWithin (engine : Engine) : Except EngineFault Engine :=
  match memory with
  | some bytes => engine.stepInMemory bytes
  | none => engine.step

/-- Some steps, in so much memory or in as much as it takes. -/
def stepsWithin (engine : Engine) (n : Nat) : Except EngineFault Engine :=
  match memory with
  | some bytes => engine.stepsInMemory bytes n
  | none => engine.steps n

/-- Some steps and a picture, in so much memory or in as much as it takes. -/
def runWithin (engine : Engine) (generations : Int) : Except EngineFault (Engine × Snapshot) :=
  match memory with
  | some bytes => engine.runInMemory bytes generations
  | none => engine.run generations

/-- The neighbour counts of every state, in so much memory or in as much as it takes. -/
def neighborCountsWithin (engine : Engine) : Except EngineFault (List (String × Grid Int)) :=
  match memory with
  | some bytes => engine.neighborCountsInMemory bytes
  | none => engine.neighborCounts

/-- The answer to a call, and the engine after it. -/
def answer (engine : Engine) : Call → Except EngineFault (Engine × Answer)
  | .start dimensions initial => do
    return (← engine.startWithin memory dimensions initial, .done)
  | .step => do return (← engine.stepWithin memory, .done)
  | .run generations => do
    let (next, picture) ← engine.runWithin memory generations
    return (next, .picture picture)
  | .nextState cell => do return (engine, .name (← engine.nextState cell))
  | .cellCounts cell => do return (engine, .counts (← engine.cellCounts cell))
  | .neighborCounts => do return (engine, .countGrids (← engine.neighborCountsWithin memory))
  | .currentGrid => do return (engine, .picture (← engine.snapshot))

end Memory

/-! ## Assigning it -/

/-- An operation on the one engine there is. It keeps what it assigned when it fails. -/
abbrev InPlace (α : Type) : Type := EStateM EngineFault Engine α

namespace InPlace

variable {α : Type}

/-- Asks the engine for something without assigning anything. -/
def ask (query : Engine → Except EngineFault α) : InPlace α := fun engine =>
  match query engine with
  | .ok answer => .ok answer engine
  | .error fault => .error fault engine

/-- The room for a new grid. -/
def startRoom (bytes : Nat) (dimensions : Option (List Scalar))
    (initial : Option (Table Vec String)) (engine : Engine) : Except EngineFault Unit := do
  let shape ← (engine.program.newShape dimensions initial).mapError .refused
  requireRoom (storageFault? bytes cellBytes shape)

/-- The room for the counts of a step. -/
def stepRoom (bytes : Nat) (engine : Engine) : Except EngineFault Unit := do
  let grid ← engine.require "step"
  requireRoom (engine.program.countFault? bytes grid.shape engine.program.census)

section Memory

variable (memory : Option Nat)

/-- Starts over with a new grid, as soon as it is there. -/
def start (dimensions : Option (List Scalar)) (initial : Option (Table Vec String)) :
    InPlace Unit := do
  if let some bytes := memory then ask (startRoom bytes dimensions initial)
  let grid ← ask fun engine =>
    (engine.program.initialGrid dimensions initial).mapError .refused
  modify fun engine => { engine with buffers := some ⟨grid, Grid.fill grid.shape 0⟩ }
  modify fun engine => { engine with generation := 0 }

/-- Advances the grid by one generation, as soon as the next grid is there. -/
def step : InPlace Unit := do
  if let some bytes := memory then ask (stepRoom bytes)
  let buffers ← ask fun engine => engine.requireBuffers "step"
  let next ← ask fun engine =>
    (engine.program.nextGrid buffers).mapError fun fault => .transition (.evaluation fault)
  modify fun engine => { engine with buffers := some ⟨next, buffers.current⟩ }
  modify fun engine => { engine with generation := engine.generation + 1 }

/-- Advances the grid by some generations, one after the other. -/
def steps : Nat → InPlace Unit
  | 0 => pure ()
  | n + 1 => do
    step memory
    steps n

/-- What an engine does when it is called. -/
def perform : Call → InPlace Answer
  | .start dimensions initial => do
    start memory dimensions initial
    return .done
  | .step => do
    step memory
    return .done
  | .run generations => do
    steps memory generations.toNat
    return .picture (← ask snapshot)
  | .nextState cell => do return .name (← ask (nextState · cell))
  | .cellCounts cell => do return .counts (← ask (cellCounts · cell))
  | .neighborCounts => do return .countGrids (← ask (neighborCountsWithin memory))
  | .currentGrid => do return .picture (← ask snapshot)

end Memory

end InPlace

/-- What comes of a call: the answer or the fault, and the engine that is left. -/
def call (memory : Option Nat) (engine : Engine) (call : Call) :
    Except EngineFault Answer × Engine :=
  match InPlace.perform memory call engine with
  | .ok answer next => (.ok answer, next)
  | .error fault next => (.error fault, next)

/-! ## All at once -/

/-- Does in place what was computed. If that failed, nothing is assigned. -/
def atOnce {α : Type} (engine : Engine) : Except EngineFault (Engine × α) →
    EStateM.Result EngineFault Engine α
  | .ok (next, answer) => .ok answer next
  | .error fault => .error fault engine

namespace InPlace

variable {memory : Option Nat} {engine : Engine}

theorem bind_of_ok {α β : Type} {first : InPlace α} {a : α} {next : Engine}
    (done : first engine = .ok a next) (rest : α → InPlace β) :
    (first >>= rest) engine = rest a next := by
  simp only [bind, EStateM.bind, done]

theorem bind_of_error {α β : Type} {first : InPlace α} {fault : EngineFault} {next : Engine}
    (failed : first engine = .error fault next) (rest : α → InPlace β) :
    (first >>= rest) engine = .error fault next := by
  simp only [bind, EStateM.bind, failed]

theorem ask_of_ok {α : Type} {query : Engine → Except EngineFault α} {a : α}
    (asked : query engine = .ok a) : ask query engine = .ok a engine := by
  simp only [ask, asked]

theorem ask_of_error {α : Type} {query : Engine → Except EngineFault α} {fault : EngineFault}
    (asked : query engine = .error fault) : ask query engine = .error fault engine := by
  simp only [ask, asked]

theorem startInMemory_eq (bytes : Nat) (engine : Engine) (dimensions : Option (List Scalar))
    (initial : Option (Table Vec String)) :
    engine.startInMemory bytes dimensions initial =
      (startRoom bytes dimensions initial engine >>= fun _ => engine.start dimensions initial) := by
  rw [startInMemory, startRoom]
  cases engine.program.newShape dimensions initial <;> rfl

theorem stepInMemory_eq (bytes : Nat) (engine : Engine) :
    engine.stepInMemory bytes = (stepRoom bytes engine >>= fun _ => engine.step) := by
  rw [stepInMemory, stepRoom]
  cases engine.require "step" <;> rfl

/-- What is asked for first fails first, and nothing is assigned before it is there. -/
theorem ask_bind {α : Type} {query : Engine → Except EngineFault α} {rest : α → InPlace Unit}
    {computed : α → Except EngineFault Engine}
    (each : ∀ a, rest a engine = engine.atOnce ((computed a).map (·, ()))) :
    (ask query >>= rest) engine =
      engine.atOnce ((query engine >>= computed).map (·, ())) := by
  cases asked : query engine with
  | ok a => exact (bind_of_ok (ask_of_ok asked) rest).trans (each a)
  | error fault => exact bind_of_error (ask_of_error asked) rest

/-- A new grid is assigned when it is there. -/
theorem start_eq (dimensions : Option (List Scalar)) (initial : Option (Table Vec String)) :
    start memory dimensions initial engine =
      engine.atOnce ((engine.startWithin memory dimensions initial).map (·, ())) := by
  have unbounded : start none dimensions initial engine =
      engine.atOnce ((engine.start dimensions initial).map (·, ())) :=
    ask_bind fun grid => rfl
  cases memory with
  | none => exact unbounded
  | some bytes =>
      rw [startWithin, startInMemory_eq]
      exact ask_bind fun _ => unbounded

/-- The next grid is assigned when it is there. -/
theorem step_eq :
    step memory engine = engine.atOnce ((engine.stepWithin memory).map (·, ())) := by
  have unbounded : step none engine = engine.atOnce (engine.step.map (·, ())) :=
    ask_bind fun buffers => ask_bind fun next => rfl
  cases memory with
  | none => exact unbounded
  | some bytes =>
      rw [stepWithin, stepInMemory_eq]
      exact ask_bind fun _ => unbounded

end InPlace

/-! ## Going on -/

/-- An engine goes on for some generations: the grid keeps its shape. -/
structure Continues (engine : Engine) (n : Nat) (next : Engine) : Prop where
  program : next.program = engine.program
  sound : next.Sound
  shape : next.current.map Grid.shape = engine.current.map Grid.shape
  generation : next.generation = engine.generation + n

theorem Sound.continues {engine : Engine} (sound : engine.Sound) : engine.Continues 0 engine :=
  ⟨rfl, sound, rfl, rfl⟩

theorem Continues.trans {first second third : Engine} {m n : Nat}
    (before : first.Continues m second) (later : second.Continues n third) :
    first.Continues (m + n) third where
  program := later.program.trans before.program
  sound := later.sound
  shape := later.shape.trans before.shape
  generation := by rw [later.generation, before.generation, Nat.add_assoc]

theorem Sound.continues_after {engine : Engine} (sound : engine.Sound) {buffers : Buffers}
    (ready : engine.buffers = some buffers) :
    engine.Continues 1 (engine.after buffers.current) where
  program := rfl
  sound := sound.after ready
  shape := by
    rw [current, current, ready]
    rfl
  generation := rfl

section Steps

variable {memory : Option Nat} {engine : Engine}

/-- There is room for the counts of a step, however many bytes there are. -/
def Roomy (memory : Option Nat) (engine : Engine) : Prop :=
  ∀ bytes ∈ memory, InPlace.stepRoom bytes engine = .ok ()

theorem Sound.stepWithin_eq (sound : engine.Sound) {buffers : Buffers}
    (ready : engine.buffers = some buffers) (roomy : engine.Roomy memory) :
    engine.stepWithin memory = .ok (engine.after buffers.current) := by
  cases memory with
  | none => exact sound.step_eq ready
  | some bytes =>
      rw [stepWithin, InPlace.stepInMemory_eq, roomy bytes rfl]
      exact sound.step_eq ready

/-- A step succeeds only if the engine is ready and there is room. -/
theorem ready_of_stepWithin {next : Engine} (done : engine.stepWithin memory = .ok next) :
    (∃ buffers, engine.buffers = some buffers) ∧ engine.Roomy memory := by
  have ready_of_step : ∀ other, engine.step = .ok other →
      ∃ buffers, engine.buffers = some buffers := by
    intro other stepped
    rcases bind_eq_ok_iff.mp stepped with ⟨buffers, required, _⟩
    rw [requireBuffers] at required
    split at required
    · rename_i known
      exact ⟨_, known⟩
    · exact absurd required (by simp)
  cases memory with
  | none => exact ⟨ready_of_step next done, fun _ limited => absurd limited (by simp)⟩
  | some bytes =>
      rw [stepWithin, InPlace.stepInMemory_eq] at done
      rcases bind_eq_ok_iff.mp done with ⟨_, room, stepped⟩
      exact ⟨ready_of_step next stepped, fun _ limited => Option.some.inj limited ▸ room⟩

theorem stepsWithin_succ (n : Nat) :
    engine.stepsWithin memory (n + 1) =
      (engine.stepWithin memory >>= fun next => next.stepsWithin memory n) := by
  cases memory <;> rfl

theorem stepRoom_eq {bytes : Nat} {buffers : Buffers} (ready : engine.buffers = some buffers) :
    InPlace.stepRoom bytes engine = requireRoom
      (engine.program.countFault? bytes buffers.current.shape engine.program.census) := by
  rw [InPlace.stepRoom, require, requireBuffers, ready]
  rfl

/-- Where there is room for one step, there is room for any number of steps. -/
theorem Sound.exists_stepsWithin (sound : engine.Sound) {buffers : Buffers}
    (ready : engine.buffers = some buffers) (roomy : engine.Roomy memory) (n : Nat) :
    ∃ next, engine.stepsWithin memory n = .ok next ∧
      InPlace.steps memory n engine = .ok () next ∧ engine.Continues n next := by
  induction n generalizing engine buffers with
  | zero => exact ⟨engine, by cases memory <;> rfl, rfl, sound.continues⟩
  | succ n ih =>
      have stepped := sound.stepWithin_eq ready roomy
      have ready' : (engine.after buffers.current).buffers =
        some ⟨engine.program.successor buffers.current, buffers.current⟩ := rfl
      have roomy' : (engine.after buffers.current).Roomy memory := by
        intro bytes limited
        rw [stepRoom_eq ready', ← roomy bytes limited, stepRoom_eq ready]
        rfl
      have follows := sound.continues_after ready
      rcases ih follows.sound ready' roomy' with ⟨next, done, assigned, continues⟩
      refine ⟨next, ?_, ?_, ?_⟩
      · rw [stepsWithin_succ, stepped]
        exact done
      · have first : InPlace.step memory engine = .ok () (engine.after buffers.current) := by
          rw [InPlace.step_eq, stepped]
          rfl
        exact (InPlace.bind_of_ok first _).trans assigned
      · rw [Nat.add_comm]
        exact follows.trans continues

/-- Steps either all succeed, or the first of them fails. -/
theorem Sound.steps_cases (sound : engine.Sound) (n : Nat) :
    (∃ next, engine.stepsWithin memory n = .ok next ∧
      InPlace.steps memory n engine = .ok () next ∧ engine.Continues n next ∧
        (engine.buffers = none → next = engine)) ∨
    ∃ fault, engine.stepsWithin memory n = .error fault ∧
      InPlace.steps memory n engine = .error fault engine := by
  cases n with
  | zero => exact Or.inl ⟨engine, by cases memory <;> rfl, rfl, sound.continues, fun _ => rfl⟩
  | succ n =>
      cases stepped : engine.stepWithin memory with
      | ok between =>
          rcases ready_of_stepWithin stepped with ⟨⟨buffers, ready⟩, roomy⟩
          rcases sound.exists_stepsWithin ready roomy (n + 1) with ⟨next, done, assigned, continues⟩
          refine Or.inl ⟨next, done, assigned, continues, fun missing => ?_⟩
          exact absurd (missing.symm.trans ready) nofun
      | error fault =>
          have failed : InPlace.step memory engine = .error fault engine := by
            rw [InPlace.step_eq, stepped]
            rfl
          refine Or.inr ⟨fault, ?_, InPlace.bind_of_error failed _⟩
          rw [stepsWithin_succ, stepped]
          rfl

theorem runWithin_eq (generations : Int) :
    engine.runWithin memory generations =
      (engine.stepsWithin memory generations.toNat >>= fun next =>
        next.snapshot >>= fun picture => pure (next, picture)) := by
  cases memory <;> rfl

/-- An engine without a grid has no picture. -/
theorem ready_of_snapshot {fault : EngineFault} (failed : engine.snapshot = .error fault) :
    engine.buffers = none := by
  cases ready : engine.buffers with
  | none => rfl
  | some buffers => exact absurd ((snapshot_eq ready).symm.trans failed) nofun

theorem InPlace.ask_eq {α : Type} (query : Engine → Except EngineFault α) (wrap : α → Answer) :
    (ask query >>= fun a => pure (wrap a)) engine =
      engine.atOnce (query engine >>= fun a => pure (engine, wrap a)) := by
  cases asked : query engine with
  | ok a => exact bind_of_ok (ask_of_ok asked) _
  | error fault => exact bind_of_error (ask_of_error asked) _

theorem InPlace.done_eq {operation : InPlace Unit} {computed : Except EngineFault Engine}
    (same : operation engine = engine.atOnce (computed.map (·, ()))) :
    (operation >>= fun _ => pure Answer.done) engine =
      engine.atOnce (computed >>= fun next => pure (next, Answer.done)) := by
  cases computed with
  | ok next => exact bind_of_ok same _
  | error fault => exact bind_of_error same _

/-- Whatever an engine is asked for, it does in place what was computed at once. -/
theorem Sound.perform_eq (sound : engine.Sound) (asked : Call) :
    InPlace.perform memory asked engine = engine.atOnce (engine.answer memory asked) := by
  cases asked with
  | start dimensions initial => exact InPlace.done_eq (InPlace.start_eq dimensions initial)
  | step => exact InPlace.done_eq InPlace.step_eq
  | run generations =>
      rw [answer, runWithin_eq]
      rcases sound.steps_cases generations.toNat with
        ⟨next, done, assigned, continues, idle⟩ | ⟨fault, failed, assigned⟩
      · rw [done]
        apply (InPlace.bind_of_ok assigned _).trans
        cases pictured : next.snapshot with
        | ok picture =>
            simp only [bind, Except.bind, pictured]
            exact InPlace.bind_of_ok (InPlace.ask_of_ok pictured) _
        | error fault =>
            -- only an engine without a grid has no picture, and such an engine takes no steps
            have missing := ready_of_snapshot pictured
            have none_before : engine.buffers = none := by
              have same := continues.shape
              rw [current, missing] at same
              exact Option.map_eq_none_iff.mp (Option.map_eq_none_iff.mp same.symm)
            obtain rfl := idle none_before
            simp only [bind, Except.bind, pictured]
            exact InPlace.bind_of_error (InPlace.ask_of_error pictured) _
      · rw [failed]
        exact InPlace.bind_of_error assigned _
  | nextState cell => exact InPlace.ask_eq _ _
  | cellCounts cell => exact InPlace.ask_eq _ _
  | neighborCounts => exact InPlace.ask_eq _ _
  | currentGrid => exact InPlace.ask_eq _ _

end Steps

end Engine

end Cellular
