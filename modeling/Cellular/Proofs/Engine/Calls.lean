import Cellular.Proofs.Engine.InPlace
import Cellular.Proofs.Engine.Prediction

/-!
# One call

A call either starts a new grid, or it goes on from the grid there is for some steps, of
which there may be none. Without a grid an engine can only be started. With a grid a call
only fails for want of room for its counts, unless it starts over or is about a cell that
is not there.
-/

namespace Cellular

/-- What is missing for the counts that a call needs in a grid of the given shape: a step
counts the states that matter, and so does a run that takes any steps. -/
def Call.countFault? (memory : Option Nat) (program : Program) (shape : List Nat) :
    Call → Option CapacityFault
  | .step => program.countFaultWithin? memory shape program.census
  | .run generations =>
    if generations ≤ 0 then none else program.countFaultWithin? memory shape program.census
  | .neighborCounts =>
    program.countFaultWithin? memory shape (List.range program.registry.states.length)
  | _ => none

/-! ## What happened -/

/-- A call and what came of it. -/
structure Event where
  call : Call
  outcome : Except EngineFault Answer

namespace Event

/-- Whether a new grid was started. -/
def starts : Event → Bool
  | ⟨.start _ _, .ok _⟩ => true
  | _ => false

/-- The number of steps that were taken. -/
def steps : Event → Nat
  | ⟨.step, .ok _⟩ => 1
  | ⟨.run generations, .ok _⟩ => generations.toNat
  | _ => 0

theorem starts_error (call : Call) (fault : EngineFault) :
    starts ⟨call, .error fault⟩ = false := by
  cases call <;> rfl

theorem steps_error (call : Call) (fault : EngineFault) : steps ⟨call, .error fault⟩ = 0 := by
  cases call <;> rfl

end Event

/-! ## One call -/

namespace Engine

section Call

variable {memory : Option Nat} {engine next : Engine} {asked : Call}

theorem Sound.call_of_ok (sound : engine.Sound) {given : Answer}
    (answered : engine.answer memory asked = .ok (next, given)) :
    engine.call memory asked = (.ok given, next) := by
  rw [call, sound.perform_eq, answered]
  rfl

/-- A call that fails leaves the engine as it was. -/
theorem Sound.call_of_error (sound : engine.Sound) {fault : EngineFault}
    (failed : engine.answer memory asked = .error fault) :
    engine.call memory asked = (.error fault, engine) := by
  rw [call, sound.perform_eq, failed]
  rfl

private theorem same_of_asked {α : Type} {query : Except EngineFault α} {wrap : α → Answer}
    {given : Answer}
    (answered : (query >>= fun a => pure (engine, wrap a)) = .ok (next, given)) :
    next = engine := by
  rcases bind_eq_ok_iff.mp answered with ⟨_, _, same⟩
  exact (Prod.mk.inj (pure_eq_ok_iff.mp same)).1.symm

theorem start_of_startWithin {dimensions : Option (List Scalar)}
    {initial : Option (Table Vec String)}
    (done : engine.startWithin memory dimensions initial = .ok next) :
    engine.start dimensions initial = .ok next := by
  cases memory with
  | none => exact done
  | some bytes => exact start_of_startInMemory done

theorem Sound.continues_of_step (sound : engine.Sound)
    (done : engine.stepWithin memory = .ok next) : engine.Continues 1 next := by
  rcases ready_of_stepWithin done with ⟨⟨buffers, ready⟩, roomy⟩
  rw [sound.stepWithin_eq ready roomy] at done
  obtain rfl := Except.ok.inj done
  exact sound.continues_after ready

theorem Sound.continues_of_run (sound : engine.Sound) {generations : Int} {picture : Snapshot}
    (done : engine.runWithin memory generations = .ok (next, picture)) :
    engine.Continues generations.toNat next := by
  rw [runWithin_eq] at done
  rcases bind_eq_ok_iff.mp done with ⟨between, stepped, done⟩
  rcases bind_eq_ok_iff.mp done with ⟨_, _, done⟩
  rcases Prod.mk.inj (pure_eq_ok_iff.mp done) with ⟨rfl, _⟩
  rcases sound.steps_cases generations.toNat with
    ⟨other, known, _, continues, _⟩ | ⟨_, failed, _⟩
  · rw [known] at stepped
    obtain rfl := Except.ok.inj stepped
    exact continues
  · rw [failed] at stepped
    exact absurd stepped nofun

/-- A new grid is only started by a start that succeeds. -/
theorem Sound.exists_startWithin (sound : engine.Sound)
    (starts : Event.starts ⟨asked, (engine.call memory asked).1⟩ = true) :
    ∃ dimensions initial,
      engine.startWithin memory dimensions initial = .ok (engine.call memory asked).2 := by
  cases answered : engine.answer memory asked with
  | error fault =>
      rw [sound.call_of_error answered, Event.starts_error] at starts
      exact absurd starts nofun
  | ok result =>
      rcases result with ⟨other, given⟩
      rw [sound.call_of_ok answered] at starts ⊢
      cases asked with
      | start dimensions initial =>
          rcases bind_eq_ok_iff.mp answered with ⟨first, done, same⟩
          rcases Prod.mk.inj (pure_eq_ok_iff.mp same) with ⟨rfl, _⟩
          exact ⟨dimensions, initial, done⟩
      | _ => exact absurd starts nofun

/-- A call that starts a new grid makes the engine ready, at generation zero. -/
theorem Sound.call_starts (sound : engine.Sound)
    (starts : Event.starts ⟨asked, (engine.call memory asked).1⟩ = true) :
    (engine.call memory asked).2.Sound ∧
      (engine.call memory asked).2.program = engine.program ∧
      (engine.call memory asked).2.isReady = true ∧
      (engine.call memory asked).2.generation = 0 := by
  rcases sound.exists_startWithin starts with ⟨dimensions, initial, done⟩
  have started := start_of_startWithin done
  rcases start_eq_ok_iff.mp started with ⟨grid, _, same⟩
  refine ⟨sound.start started, ?_⟩
  rw [same]
  exact ⟨rfl, rfl, rfl⟩

/-- After any other call the engine has gone on for the number of steps that were taken. -/
theorem Sound.call_continues (sound : engine.Sound)
    (other : Event.starts ⟨asked, (engine.call memory asked).1⟩ = false) :
    engine.Continues (Event.steps ⟨asked, (engine.call memory asked).1⟩)
      (engine.call memory asked).2 := by
  cases answered : engine.answer memory asked with
  | error fault =>
      rw [sound.call_of_error answered, Event.steps_error]
      exact sound.continues
  | ok result =>
      rcases result with ⟨after, given⟩
      rw [sound.call_of_ok answered] at other ⊢
      cases asked with
      | start dimensions initial => exact absurd other nofun
      | step =>
          rcases bind_eq_ok_iff.mp answered with ⟨_, done, same⟩
          rcases Prod.mk.inj (pure_eq_ok_iff.mp same) with ⟨rfl, _⟩
          exact sound.continues_of_step done
      | run generations =>
          rcases bind_eq_ok_iff.mp answered with ⟨⟨_, picture⟩, done, same⟩
          rcases Prod.mk.inj (pure_eq_ok_iff.mp same) with ⟨rfl, _⟩
          exact sound.continues_of_run done
      | nextState cell =>
          obtain rfl := same_of_asked answered
          exact sound.continues
      | cellCounts cell =>
          obtain rfl := same_of_asked answered
          exact sound.continues
      | neighborCounts =>
          obtain rfl := same_of_asked answered
          exact sound.continues
      | currentGrid =>
          obtain rfl := same_of_asked answered
          exact sound.continues

/-! ### The outcome -/

theorem isReady_iff : engine.isReady = true ↔ ∃ buffers, engine.buffers = some buffers := by
  rw [isReady, current, Option.isSome_map, Option.isSome_iff_exists]

section Missing

variable (missing : engine.buffers = none)
include missing

theorem requireBuffers_of_missing (task : String) :
    engine.requireBuffers task = .error (.notReady task) := by
  rw [requireBuffers, missing]

theorem require_of_missing (task : String) : engine.require task = .error (.notReady task) := by
  rw [require, requireBuffers_of_missing missing]
  rfl

theorem snapshot_of_missing : engine.snapshot = .error (.notReady "read the grid") := by
  rw [snapshot, require_of_missing missing]
  rfl

end Missing

section Ready

variable {buffers : Buffers} (ready : engine.buffers = some buffers)
include ready

theorem stepWithin_of_full {fault : CapacityFault} (full : engine.program.countFaultWithin? memory
    buffers.current.shape engine.program.census = some fault) :
    engine.stepWithin memory = .error (.capacity fault) := by
  cases memory with
  | none => exact absurd full nofun
  | some bytes =>
      have full : engine.program.countFault? bytes buffers.current.shape engine.program.census =
        some fault := full
      rw [stepWithin, InPlace.stepInMemory_eq, stepRoom_eq ready, full]
      rfl

end Ready

/-! ### All of it -/

end Call

end Engine

end Cellular
