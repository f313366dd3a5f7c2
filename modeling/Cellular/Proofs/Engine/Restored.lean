import Cellular.Proofs.Engine.Evolution
import Cellular.Proofs.Engine.Initialized
import Cellular.Proofs.Engine.Session

/-!
# Pictures to go on from

A picture holds all that the future depends on. Its cells, taken as an initial assignment for
its extents, start the same grid again, whether or not the program has a default state, and
from there every further generation is the one that would have come without the interruption.
Only the count of generations starts over.

In finite memory a grid that could be stored can be stored again, and steps have room on
both sides or on neither.
-/

namespace Cellular

/-! ## Cells as entries -/

theorem nodup_coordinates (shape : List Nat) : (coordinates shape).Nodup := by
  apply List.Nodup.of_map (rowIndex · shape)
  rw [map_rowIndex_coordinates]
  exact List.nodup_range

theorem Grid.entries_eq {α : Type} (grid : Grid α) (beyond : α) :
    grid.entries = (coordinates grid.shape).map fun cell => (cell, grid.getD cell beyond) := by
  have cells : grid.cells.toList = (coordinates grid.shape).map (grid.getD · beyond) :=
    congrArg (fun grid => grid.cells.toList) (ofFn_getD grid beyond).symm
  rw [entries, cells, ← List.zip_map', List.map_id']

namespace Snapshot

/-- The extents of a picture, as dimensions for a new grid. -/
def dimensions (picture : Snapshot) : List Scalar :=
  picture.grid.shape.map fun (n : Nat) => .whole n

/-- The names that a picture shows, as an initial assignment. -/
def toTable (picture : Snapshot) : Table Vec String :=
  Table.ofList picture.entries

theorem entries_eq (picture : Snapshot) :
    picture.entries = (coordinates picture.grid.shape).map fun cell =>
      (cell, picture.registry.nameOf (picture.grid.getD cell 0)) := by
  rw [Snapshot.entries, Grid.entries_eq _ 0, List.map_map]
  rfl

theorem map_fst_entries (picture : Snapshot) :
    picture.entries.map Prod.fst = coordinates picture.grid.shape := by
  rw [entries_eq, List.map_map]
  exact List.map_id _

/-- The initial assignment mentions every cell once, in row-major order. -/
theorem entries_toTable (picture : Snapshot) : picture.toTable.entries = picture.entries :=
  Table.entries_ofList (map_fst_entries picture ▸ nodup_coordinates _)

theorem get?_toTable {picture : Snapshot} {cell : Vec}
    (inside : isCell cell picture.grid.shape) :
    picture.toTable.get? cell =
      some (picture.registry.nameOf (picture.grid.getD cell 0)) := by
  rw [Table.get?_eq_some_iff, entries_toTable, entries_eq]
  exact List.mem_map_of_mem (mem_coordinates.mpr inside)

end Snapshot

/-! ## The same grid again -/

/-- Extents of which a grid can be started: there are no empty axes, and in finite memory
there is room for the cells. -/
structure Storable (memory : Option Nat) (shape : List Nat) : Prop where
  positive : ∀ n ∈ shape, 1 ≤ n
  room : ∀ bytes ∈ memory, storageFault? bytes cellBytes shape = none

/-- A picture that a program can go on from. -/
structure Snapshot.Restorable (memory : Option Nat) (program : Program) (picture : Snapshot) : Prop
    where
  registry : picture.registry = program.registry
  ranked : picture.grid.shape.length = program.rank
  declared : ∀ cell, isCell cell picture.grid.shape →
    picture.grid.getD cell 0 < program.registry.states.length
  storable : Storable memory picture.grid.shape

namespace Snapshot.Restorable

variable {memory : Option Nat} {program : Program} {picture : Snapshot}
  (restorable : picture.Restorable memory program)

include restorable

theorem newShape_eq :
    program.newShape (some picture.dimensions) (some picture.toTable) =
      .ok picture.grid.shape := by
  have length : picture.dimensions.length = program.rank := by
    rw [dimensions, List.length_map, restorable.ranked]
  have extents : picture.dimensions.mapM Scalar.size? = some picture.grid.shape :=
    mapM_size?_eq_some_iff.mpr ⟨rfl, restorable.storable.positive⟩
  rw [Program.newShape_eq_ok_iff, Program.resolveDimensions]
  simp only [length, extents, ne_eq, not_true_eq_false, if_false]
  exact ⟨trivial, Or.inr rfl⟩

/-- Names lead back to the states they came from, so the grid is the same. -/
theorem initialGrid_eq (distinct : program.registry.names.Nodup) :
    program.initialGrid (some picture.dimensions) (some picture.toTable) = .ok picture.grid := by
  have indexed : ∀ cell, isCell cell picture.grid.shape →
      program.registry.indexOf? (picture.registry.nameOf (picture.grid.getD cell 0)) =
        some (picture.grid.getD cell 0) := by
    intro cell inside
    rw [restorable.registry]
    exact Registry.indexOf?_nameOf distinct (restorable.declared cell inside)
  have mentioned : ∀ entry ∈ picture.toTable.entries,
      isCell entry.1 picture.grid.shape ∧ program.registry.declares entry.2 := by
    intro entry member
    rw [entries_toTable, entries_eq] at member
    rcases List.mem_map.mp member with ⟨cell, listed, rfl⟩
    have inside := mem_coordinates.mp listed
    exact ⟨inside, Registry.declares_iff.mpr ⟨_, indexed cell inside⟩⟩
  have given : ∀ cell, isCell cell picture.grid.shape →
      program.initialState (some picture.toTable) cell = some (picture.grid.getD cell 0) := by
    intro cell inside
    rw [Program.initialState, Option.bind_some, get?_toTable inside]
    exact indexed cell inside
  exact Program.initialGrid_eq_ok_iff.mpr ⟨restorable.newShape_eq, mentioned, given⟩

/-- A new engine starts on the grid of the picture. -/
theorem exists_restored (distinct : program.registry.names.Nodup) :
    ∃ restored, Engine.startWithin memory { program } (some picture.dimensions)
        (some picture.toTable) = .ok restored ∧
      restored.IsOn program picture.grid ∧ restored.generation = 0 := by
  have started : Engine.start { program } (some picture.dimensions) (some picture.toTable) =
      .ok ⟨program, some ⟨picture.grid, Grid.fill picture.grid.shape 0⟩, 0⟩ :=
    Engine.start_eq_ok_iff.mpr ⟨_, restorable.initialGrid_eq distinct, rfl⟩
  have within : Engine.startWithin memory { program } (some picture.dimensions)
      (some picture.toTable) = Engine.start { program } (some picture.dimensions)
        (some picture.toTable) := by
    cases memory with
    | none => rfl
    | some bytes =>
        apply Engine.startInMemory_of_room
        intro shape shaped
        obtain rfl := Except.ok.inj (restorable.newShape_eq.symm.trans shaped)
        exact restorable.storable.room bytes rfl
  exact ⟨_, within.trans started, ⟨rfl, _, rfl, rfl⟩, rfl⟩

end Snapshot.Restorable

/-! ## What can be restored -/

namespace Loaded

variable {source : String} {program : Program} {declarations : List Declaration} {parts : Parts}
  {validated : Validated} {memory : Option Nat}

theorem distinct (loaded : Loaded source program declarations parts validated) :
    program.registry.names.Nodup := by
  rw [loaded.registry_eq]
  exact loaded.accepted.distinct

/-- A grid that was started could be started. -/
theorem storable_of_startWithin (loaded : Loaded source program declarations parts validated)
    {engine next : Engine} (same : engine.program = program)
    {dimensions : Option (List Scalar)} {initial : Option (Table Vec String)}
    (done : engine.startWithin memory dimensions initial = .ok next) :
    ∀ shape ∈ next.current.map Grid.shape, Storable memory shape := by
  rcases Engine.start_eq_ok_iff.mp (Engine.start_of_startWithin done) with ⟨grid, first, rfl⟩
  have shaped := (Program.initialGrid_eq_ok_iff.mp first).1
  have resolved := (Program.newShape_eq_ok_iff.mp shaped).1
  rw [same, loaded.compiled, loaded.accepted.resolveDimensions_eq_ok_iff] at resolved
  intro shape known
  obtain rfl := Option.some.inj known
  constructor
  · exact resolved.positive
  · rintro bytes rfl
    rw [Engine.startWithin, Engine.startInMemory, shaped] at done
    rcases bind_eq_ok_iff.mp done with ⟨_, known, done⟩
    rcases bind_eq_ok_iff.mp done with ⟨_, room, _⟩
    obtain rfl := Except.ok.inj known
    exact Engine.requireRoom_eq_ok_iff.mp room

/-- In a session there never is a grid that could not be started. -/
theorem storable_goOn (loaded : Loaded source program declarations parts validated)
    {session : Session} (sound : session.Sound program)
    (start : ∀ shape ∈ session.engine.current.map Grid.shape, Storable memory shape)
    (calls : List Call) :
    ∀ shape ∈ (session.goOn memory calls).engine.current.map Grid.shape,
      Storable memory shape := by
  induction calls generalizing session with
  | nil => exact start
  | cons asked calls ih =>
      apply ih (sound.call asked)
      cases starts : Event.starts ⟨asked, (session.engine.call memory asked).1⟩ with
      | true =>
          rcases sound.sound.exists_startWithin starts with ⟨dimensions, initial, done⟩
          exact loaded.storable_of_startWithin sound.program done
      | false =>
          have continues := sound.sound.call_continues starts
          have kept : (session.call memory asked).engine.current.map Grid.shape =
              session.engine.current.map Grid.shape := continues.shape
          exact kept ▸ start

end Loaded

/-- The picture of an engine with a sound grid. -/
theorem Engine.Sound.restorable {engine : Engine} (sound : engine.Sound) {program : Program}
    (same : engine.program = program) {memory : Option Nat}
    (storable : ∀ shape ∈ engine.current.map Grid.shape, Storable memory shape)
    {picture : Snapshot} (shown : engine.snapshot = .ok picture) :
    picture.Restorable memory program ∧ engine.IsOn program picture.grid := by
  cases ready : engine.buffers with
  | none =>
      rw [snapshot_of_missing ready] at shown
      cases shown
  | some buffers =>
      rw [snapshot_eq ready] at shown
      obtain rfl := Except.ok.inj shown
      have buffered := sound.buffers buffers ready
      have isShape : buffers.current.shape ∈ engine.current.map Grid.shape := by
        rw [current, ready]
        rfl
      rw [same] at buffered
      constructor
      · exact ⟨congrArg Program.registry same, buffered.ranked, buffered.declared,
          storable _ isShape⟩
      · exact ⟨same, buffers.scratch, ready, buffered.same⟩

/-! ## Runs from the same grid -/

namespace Engine.IsOn

variable {program : Program} {grid : Grid Nat} {engine : Engine} {memory : Option Nat}

theorem stepWithin (sound : program.Sound) (on : engine.IsOn program grid)
    (ranked : grid.shape.length = program.rank)
    (room : program.countFaultWithin? memory grid.shape program.census = none) :
    ∃ next, engine.stepWithin memory = .ok next ∧
      next.IsOn program (program.successor grid) := by
  rcases on.step sound ranked with ⟨next, stepped, onNext⟩
  rcases on with ⟨rfl, scratch, ready, _⟩
  have within : engine.stepWithin memory = engine.step := by
    cases memory with
    | none => rfl
    | some bytes =>
        have room : engine.program.countFault? bytes grid.shape engine.program.census = none :=
          room
        rw [Engine.stepWithin, stepInMemory_of_ready ready, room]
        rfl
  exact ⟨next, within.trans stepped, onNext⟩

/-- With room for one step, or without a step, any number of steps leads to the iterated
successor. -/
theorem stepsWithin (sound : program.Sound) (on : engine.IsOn program grid)
    (ranked : grid.shape.length = program.rank) {n : Nat}
    (room : 0 < n → program.countFaultWithin? memory grid.shape program.census = none) :
    ∃ later, engine.stepsWithin memory n = .ok later ∧
      later.IsOn program (program.successor^[n] grid) := by
  induction n generalizing engine grid with
  | zero => exact ⟨engine, by cases memory <;> rfl, on⟩
  | succ n ih =>
      have roomy := room (Nat.succ_pos n)
      rcases on.stepWithin sound ranked roomy with ⟨next, stepped, onNext⟩
      rcases ih onNext ranked fun _ => roomy with ⟨later, done, onLater⟩
      have all : engine.stepsWithin memory (n + 1) = .ok later := by
        rw [stepsWithin_succ, stepped]
        exact done
      exact ⟨later, all, onLater⟩

theorem runWithin (sound : program.Sound) (on : engine.IsOn program grid)
    (ranked : grid.shape.length = program.rank) {generations : Int}
    (room : 0 < generations.toNat →
      program.countFaultWithin? memory grid.shape program.census = none) :
    ∃ later : Engine, engine.runWithin memory generations = .ok (later,
      ⟨program.successor^[generations.toNat] grid, program.registry, later.generation⟩) := by
  rcases on.stepsWithin sound ranked room with ⟨later, done, onLater⟩
  use later
  rw [runWithin_eq, done]
  simp only [ok_bind, onLater.snapshot_eq, pure_eq_ok]

/-- Without room for one step, a run fails at its first step. -/
theorem runWithin_of_full (on : engine.IsOn program grid) {fault : CapacityFault}
    (full : program.countFaultWithin? memory grid.shape program.census = some fault)
    {generations : Int} (positive : 0 < generations.toNat) :
    engine.runWithin memory generations = .error (.capacity fault) := by
  rcases Nat.exists_eq_succ_of_ne_zero positive.ne' with ⟨n, known⟩
  rcases on with ⟨rfl, scratch, ready, _⟩
  rw [runWithin_eq, known, stepsWithin_succ, stepWithin_of_full ready full]
  rfl

end Engine.IsOn

/-- Two runs show the same picture, whenever it was taken, or neither has room for a step. -/
def Engine.RunAlike (memory : Option Nat) (first second : Engine) (generations : Int) : Prop :=
  (∃ ran ran', first.runWithin memory generations = .ok ran ∧
      second.runWithin memory generations = .ok ran' ∧ ran'.2.same ran.2 = true) ∨
    memory.isSome = true ∧ ∃ fault, first.runWithin memory generations = .error (.capacity fault) ∧
      second.runWithin memory generations = .error (.capacity fault)

/-- Two pictures show the same if they have the same grid under the same names. -/
theorem Snapshot.same_iff {first second : Snapshot} :
    first.same second = true ↔
      first.registry.names = second.registry.names ∧ first.grid = second.grid := by
  rw [same, Bool.and_eq_true, beq_iff_eq, beq_iff_eq]

/-- Engines on the same grid have the same future. -/
theorem Engine.IsOn.runAlike {program : Program} (sound : program.Sound) {grid : Grid Nat}
    (ranked : grid.shape.length = program.rank) {first second : Engine}
    (on : first.IsOn program grid) (on' : second.IsOn program grid) (memory : Option Nat)
    (generations : Int) : first.RunAlike memory second generations := by
  by_cases room : 0 < generations.toNat →
      program.countFaultWithin? memory grid.shape program.census = none
  · rcases on.runWithin sound ranked room with ⟨later, done⟩
    rcases on'.runWithin sound ranked room with ⟨later', done'⟩
    exact Or.inl ⟨_, _, done, done', Snapshot.same_iff.mpr ⟨rfl, rfl⟩⟩
  · push Not at room
    rcases room with ⟨positive, full⟩
    rcases Option.ne_none_iff_exists'.mp full with ⟨fault, full⟩
    have limited : memory.isSome = true := by
      cases memory with
      | none => exact absurd full nofun
      | some bytes => rfl
    exact Or.inr ⟨limited, fault, on.runWithin_of_full full positive,
      on'.runWithin_of_full full positive⟩

/-! ## Histories -/

/-- A simulation, in so much memory or in as much as it takes. -/
def simulateWithin (memory : Option Nat) (source : String) (generations : Int)
    (dimensions : Option (List Scalar)) (initial : Option (Table Vec String)) :
    Except SimulationFault (List Snapshot) :=
  match memory with
  | some bytes => simulateInMemory bytes source generations dimensions initial
  | none => simulate source generations dimensions initial

/-- The history of an engine, in so much memory or in as much as it takes. -/
def Engine.historyWithin (memory : Option Nat) (engine : Engine) (n : Nat) :
    Except EngineFault (List Snapshot) :=
  match memory with
  | some bytes => engine.historyInMemory bytes n
  | none => engine.history n

theorem simulateWithin_eq_ok {memory : Option Nat} {source : String} {n : Int}
    {dimensions : Option (List Scalar)} {initial : Option (Table Vec String)}
    {history : List Snapshot}
    (done : simulateWithin memory source n dimensions initial = .ok history) :
    ∃ program engine, load source = .ok program ∧
      Engine.startWithin memory { program } dimensions initial = .ok engine ∧
      engine.historyWithin memory n.toNat = .ok history := by
  cases memory with
  | none =>
      rcases bind_eq_ok_iff.mp done with ⟨program, loaded, done⟩
      rcases bind_eq_ok_iff.mp done with ⟨engine, started, done⟩
      rw [mapError_eq_ok_iff] at loaded started done
      exact ⟨program, engine, loaded, started, done⟩
  | some bytes =>
      rcases bind_eq_ok_iff.mp done with ⟨program, loaded, done⟩
      rcases bind_eq_ok_iff.mp done with ⟨engine, started, done⟩
      rw [mapError_eq_ok_iff] at loaded started done
      exact ⟨program, engine, load_of_loadInMemory loaded, started, done⟩

namespace Engine.IsOn

variable {program : Program} {grid : Grid Nat} {engine : Engine}

theorem room_of_history (on : engine.IsOn program grid) {memory : Option Nat} {n : Nat}
    {history : List Snapshot} (done : engine.historyWithin memory n = .ok history) :
    0 < n → program.countFaultWithin? memory grid.shape program.census = none := by
  intro positive
  rcases Nat.exists_eq_succ_of_ne_zero positive.ne' with ⟨m, rfl⟩
  rcases on with ⟨rfl, scratch, ready, _⟩
  cases memory with
  | none => rfl
  | some bytes =>
      rcases bind_eq_ok_iff.mp done with ⟨_, _, done⟩
      rcases bind_eq_ok_iff.mp done with ⟨next, stepped, _⟩
      rw [stepInMemory_of_ready ready] at stepped
      rcases bind_eq_ok_iff.mp stepped with ⟨_, room, _⟩
      exact requireRoom_eq_ok_iff.mp room

end Engine.IsOn

theorem Engine.history_of_historyWithin {memory : Option Nat} {engine : Engine} {n : Nat}
    {history : List Snapshot} (done : engine.historyWithin memory n = .ok history) :
    engine.history n = .ok history := by
  cases memory with
  | none => exact done
  | some bytes => exact history_of_historyInMemory done

/-- Every picture of a history can be restored. -/
theorem Engine.Sound.restorable_iterate {engine : Engine} (sound : engine.Sound)
    {program : Program} {grid : Grid Nat} (on : engine.IsOn program grid) {memory : Option Nat}
    (storable : Storable memory grid.shape) {i generation : Nat} {picture : Snapshot}
    (shown : picture = ⟨program.successor^[i] grid, program.registry, generation⟩) :
    picture.Restorable memory program := by
  obtain rfl := shown
  rcases on with ⟨rfl, scratch, ready, same⟩
  have ranked := (sound.buffers _ ready).ranked
  have on : engine.IsOn engine.program grid := ⟨rfl, scratch, ready, same⟩
  rcases on.steps sound.program ranked i with ⟨later, done, onLater⟩
  have shape := engine.program.shape_iterate_successor grid i
  rcases onLater.buffers with ⟨scratch', ready', _⟩
  have declared := ((sound.steps done).buffers _ ready').declared
  rw [onLater.program] at declared
  constructor
  · rfl
  · rw [shape, ranked]
  · exact declared
  · rwa [shape]

/-! ## Going on -/

namespace Loaded

variable {source : String} {program : Program} {declarations : List Declaration} {parts : Parts}
  {validated : Validated} {memory : Option Nat}

/-- The engine of a session and its copy show the same from now on. -/
theorem exists_copy (loaded : Loaded source program declarations parts validated)
    {calls : List Call} {picture : Snapshot}
    (shown : ((Session.new program).goOn memory calls).engine.snapshot = .ok picture) :
    ∃ restored, Engine.startWithin memory { program } (some picture.dimensions)
        (some picture.toTable) = .ok restored ∧
      restored.snapshot = .ok ⟨picture.grid, picture.registry, 0⟩ ∧
      ∀ generations, ((Session.new program).goOn memory calls).engine.RunAlike memory
        restored generations := by
  have fresh := Session.sound_new loaded.sound
  have sound : ((Session.new program).goOn memory calls).Sound program := fresh.goOn calls
  have start : ∀ shape ∈ (Session.new program).engine.current.map Grid.shape,
      Storable memory shape := fun _ known => absurd known (Option.not_mem_none _)
  have storable := loaded.storable_goOn fresh start calls
  rcases sound.sound.restorable sound.program storable shown with ⟨restorable, on⟩
  rcases restorable.exists_restored loaded.distinct with ⟨restored, started, onCopy, first⟩
  have copied : restored.snapshot = .ok ⟨picture.grid, picture.registry, 0⟩ := by
    rw [onCopy.snapshot_eq, first, restorable.registry]
  exact ⟨restored, started, copied, on.runAlike loaded.sound restorable.ranked onCopy memory⟩

/-- A history that is interrupted at one of its pictures comes to the same end. -/
theorem exists_resumed (loaded : Loaded source program declarations parts validated)
    {dimensions : Option (List Scalar)} {initial : Option (Table Vec String)} {engine : Engine}
    (started : Engine.startWithin memory { program } dimensions initial = .ok engine) {n : Nat}
    {history : List Snapshot} (depicted : engine.historyWithin memory n = .ok history) :
    history.length = n + 1 ∧ ∀ (i : Nat) (picture last : Snapshot), history[i]? = some picture →
      history.getLast? = some last →
      ∃ restored ran, Engine.startWithin memory { program } (some picture.dimensions)
          (some picture.toTable) = .ok restored ∧
        restored.runWithin memory (n - i : Nat) = .ok ran ∧ ran.2.same last = true := by
  have begun := Engine.start_of_startWithin started
  have sound := (Session.sound_new loaded.sound).sound.start begun
  have storable := loaded.storable_of_startWithin rfl started
  rcases Engine.start_eq_ok_iff.mp begun with ⟨grid, _, rfl⟩
  have on : Engine.IsOn ⟨program, some ⟨grid, Grid.fill grid.shape 0⟩, 0⟩ program grid :=
    ⟨rfl, _, rfl, rfl⟩
  have ranked := (sound.buffers _ rfl).ranked
  rcases on.exists_history loaded.sound ranked n with ⟨_, known, length, shown⟩
  obtain rfl := Except.ok.inj (known.symm.trans (Engine.history_of_historyWithin depicted))
  use length
  intro i picture last found final
  have before : i ≤ n := by
    have bound := (List.getElem?_eq_some_iff.mp found).1
    omega
  rw [List.getLast?_eq_getElem?, length, Nat.add_sub_cancel] at final
  have isPicture := shown i picture found
  have isLast := shown n last final
  have restorable := sound.restorable_iterate on (storable _ rfl) isPicture
  rcases restorable.exists_restored loaded.distinct with ⟨restored, restarted, onCopy, _⟩
  have room : 0 < ((n - i : Nat) : Int).toNat →
      program.countFaultWithin? memory picture.grid.shape program.census = none := by
    intro positive
    rw [isPicture, program.shape_iterate_successor]
    exact on.room_of_history depicted (Nat.lt_of_lt_of_le positive (Nat.sub_le n i))
  rcases onCopy.runWithin loaded.sound restorable.ranked room with ⟨later, ran⟩
  have named : program.registry.names = last.registry.names := by rw [isLast]
  have arrives : program.successor^[n - i] picture.grid = last.grid := by
    calc
      program.successor^[n - i] picture.grid
        = program.successor^[n - i] (program.successor^[i] grid) := by rw [isPicture]
      _ = program.successor^[n] grid := by
          rw [← Function.iterate_add_apply, Nat.sub_add_cancel before]
      _ = last.grid := by rw [isLast]
  exact ⟨restored, _, restarted, ran, Snapshot.same_iff.mpr ⟨named, arrives⟩⟩

end Loaded

/-- Whatever happened to the engine of a loaded program, the picture of its grid starts the
same grid in a new engine, and from there on both engines show the same. So a history can be
interrupted at any of its pictures. -/
theorem restored_resumes {source : String} {program : Program}
    (loaded : load source = .ok program) (memory : Option Nat) :
    (∀ (calls : List Call) (picture : Snapshot),
      ((Session.new program).goOn memory calls).engine.snapshot = .ok picture →
      ∃ restored copy, Engine.startWithin memory { program } (some picture.dimensions)
          (some picture.toTable) = .ok restored ∧
        restored.snapshot = .ok copy ∧ copy.same picture = true ∧ copy.generation = 0 ∧
        ∀ generations, ((Session.new program).goOn memory calls).engine.RunAlike memory
          restored generations) ∧
    -- from any picture of a history a new engine comes to the last one
    ∀ (n : Int) (dimensions : Option (List Scalar)) (initial : Option (Table Vec String))
      (history : List Snapshot), simulateWithin memory source n dimensions initial = .ok history →
      history.length = n.toNat + 1 ∧
      ∀ (i : Nat) (picture last : Snapshot), history[i]? = some picture →
        history.getLast? = some last →
        ∃ restored ran, Engine.startWithin memory { program } (some picture.dimensions)
            (some picture.toTable) = .ok restored ∧
          restored.runWithin memory (n.toNat - i : Nat) = .ok ran ∧ ran.2.same last = true := by
  rcases loaded_of_load loaded with ⟨_, _, _, origin⟩
  constructor
  · intro calls picture shown
    rcases origin.exists_copy shown with ⟨restored, started, copied, alike⟩
    exact ⟨restored, _, started, copied, Snapshot.same_iff.mpr ⟨rfl, rfl⟩, rfl, alike⟩
  · intro n dimensions initial history done
    rcases simulateWithin_eq_ok done with ⟨program', engine, loaded', started, depicted⟩
    obtain rfl := Except.ok.inj (loaded.symm.trans loaded')
    exact origin.exists_resumed started depicted

theorem restored_resumes_ring : ∃ program picture history, load ringSource = .ok program ∧
    ((Session.new program).goOn none [.start none none]).engine.snapshot = .ok picture ∧
    simulateWithin none ringSource 2 none none = .ok history ∧
    (∃ restored, Engine.startWithin none { program } (some picture.dimensions)
        (some picture.toTable) = .ok restored ∧
      ((Session.new program).goOn none [.start none none]).engine.RunAlike none restored 2) ∧
    ∃ middle last, history[1]? = some middle ∧ history.getLast? = some last ∧
      ∃ restored ran, Engine.startWithin none { program } (some middle.dimensions)
          (some middle.toTable) = .ok restored ∧
        restored.runWithin none 1 = .ok ran ∧ ran.2.same last = true := by
  rcases start_ring with ⟨program, engine, loaded, started⟩
  rcases loaded_of_load loaded with ⟨_, _, _, origin⟩
  have fresh := (Session.sound_new origin.sound).sound
  have answered : (Session.new program).engine.answer none (.start none none) =
      .ok (engine, .done) := by
    have known : (Session.new program).engine.startWithin none none none = .ok engine := started
    rw [Engine.answer, known]
    rfl
  have called : ((Session.new program).goOn none [.start none none]).engine = engine :=
    congrArg Prod.snd (fresh.call_of_ok answered)
  rcases Engine.start_eq_ok_iff.mp started with ⟨grid, _, rfl⟩
  have on : Engine.IsOn ⟨program, some ⟨grid, Grid.fill grid.shape 0⟩, 0⟩ program grid :=
    ⟨rfl, _, rfl, rfl⟩
  have ranked := ((fresh.start started).buffers _ rfl).ranked
  have shown : ((Session.new program).goOn none [.start none none]).engine.snapshot =
      .ok ⟨grid, program.registry, 0⟩ := called ▸ on.snapshot_eq
  rcases on.exists_history origin.sound ranked 2 with ⟨history, depicted, length, _⟩
  have simulated : simulateWithin none ringSource 2 none none = .ok history := by
    rw [simulateWithin, simulate, loaded]
    simp only [Except.mapError, ok_bind, started]
    exact congrArg (Except.mapError _) depicted
  obtain ⟨resumes, interrupted⟩ := restored_resumes loaded none
  obtain ⟨restored, _, restarted, _, _, _, alike⟩ := resumes _ _ shown
  obtain ⟨_, each⟩ := interrupted 2 none none history simulated
  have middle := List.getElem?_eq_getElem (by omega : 1 < history.length)
  have last := List.getLast?_eq_getElem? (l := history)
  rw [length, List.getElem?_eq_getElem (by omega : 2 < history.length)] at last
  exact ⟨program, _, history, loaded, shown, simulated, ⟨restored, restarted, alike 2⟩, _, _,
    middle, last, each 1 _ _ middle last⟩

end Cellular
