import Cellular.Proofs.Engine.Calls

/-!
# Sessions

In a session a new engine is called again and again, whatever comes of the calls. What is
known of the engine at any time can be read off the calls and their outcomes alone: whether
it has a grid, and how many steps that grid is away from the first one.
-/

namespace Cellular

/-- The number of steps since the last start. The events are listed from the latest one on. -/
def stepsSinceStart : List Event → Nat
  | [] => 0
  | event :: earlier => if event.starts then 0 else event.steps + stepsSinceStart earlier

/-- An engine that is called again and again, and what happened, from the latest event on. -/
structure Session where
  engine : Engine
  events : List Event

namespace Session

/-- The session of a new engine. -/
def new (program : Program) : Session :=
  ⟨{ program }, []⟩

/-- Calls the engine and notes what came of it. -/
def call (memory : Option Nat) (session : Session) (asked : Call) : Session :=
  let (outcome, next) := session.engine.call memory asked
  ⟨next, ⟨asked, outcome⟩ :: session.events⟩

/-- Calls the engine again and again. -/
def goOn (memory : Option Nat) (session : Session) (calls : List Call) : Session :=
  calls.foldl (call memory) session

end Session

/-! ## What is kept -/

/-- What is known of the engine of a session. -/
structure Session.Sound (program : Program) (session : Session) : Prop where
  program : session.engine.program = program
  sound : session.engine.Sound
  /-- The engine is ready exactly if a start has succeeded. -/
  ready : session.engine.isReady = true ↔ ∃ event ∈ session.events, event.starts = true
  /-- The generation is the number of steps since then. -/
  generation : session.engine.generation = stepsSinceStart session.events

namespace Session

variable {memory : Option Nat} {program : Program} {session : Session}

theorem sound_new (sound : program.Sound) : (new program).Sound program where
  program := rfl
  sound := ⟨sound, fun _ known => absurd known nofun⟩
  ready := by
    constructor
    · exact fun ready => absurd ready nofun
    · rintro ⟨_, member, _⟩
      exact absurd member List.not_mem_nil
  generation := rfl

private theorem isReady_congr {first second : Engine}
    (same : second.current.map Grid.shape = first.current.map Grid.shape) :
    second.isReady = first.isReady := by
  rw [Engine.isReady, ← Option.isSome_map, same, Option.isSome_map, Engine.isReady]

/-- Every call keeps what is known of a session. -/
theorem Sound.call (sound : session.Sound program) (asked : Call) :
    (session.call memory asked).Sound program := by
  cases starts : Event.starts ⟨asked, (session.engine.call memory asked).1⟩ with
  | true =>
      rcases sound.sound.call_starts starts with ⟨next, same, ready, generation⟩
      constructor
      · exact same.trans sound.program
      · exact next
      · exact iff_of_true ready ⟨_, List.mem_cons_self, starts⟩
      · rw [Session.call, stepsSinceStart, if_pos starts]
        exact generation
  | false =>
      have continues := sound.sound.call_continues starts
      constructor
      · exact continues.program.trans sound.program
      · exact continues.sound
      · rw [Session.call, isReady_congr continues.shape, sound.ready, List.exists_mem_cons_iff]
        simp only [starts, Bool.false_eq_true, false_or]
      · have counted := continues.generation
        rw [sound.generation, Nat.add_comm] at counted
        rw [Session.call, stepsSinceStart, starts]
        exact counted

theorem Sound.goOn (sound : session.Sound program) (calls : List Call) :
    (session.goOn memory calls).Sound program := by
  induction calls generalizing session with
  | nil => exact sound
  | cons asked calls ih => exact ih (sound.call asked)

end Session

/-! ## Sessions of loaded programs -/

end Cellular
