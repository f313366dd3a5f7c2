import Cellular.Proofs.Engine.Reachable
import Cellular.Proofs.Program.Loading

/-!
# Cells foretell the step

What a step makes of a cell can be asked for beforehand, for that cell alone. The answers
do not depend on each other, so it does not matter in which order the cells are asked, nor
what the grid that the step is written into held before.
-/

namespace Cellular

namespace Engine

/-! ## One cell -/

/-- The name of the state that a cell of a grid will have after a step. -/
def foretold (engine : Engine) (grid : Grid Nat) (cell : Vec) : String :=
  engine.program.registry.nameOf
    (engine.program.follower (engine.program.countsAt grid cell) (grid.getD cell 0))

theorem Sound.nextState_eq {engine : Engine} (sound : engine.Sound) {buffers : Buffers}
    (ready : engine.buffers = some buffers) {cell : Vec}
    (inside : isCell cell buffers.current.shape) :
    engine.nextState cell = .ok (engine.foretold buffers.current cell) := by
  have declared := (sound.buffers buffers ready).declared cell inside
  rw [nextState, require, requireBuffers, ready]
  simp only [Except.map, bind, Except.bind, Grid.checkCoordinate_of_isCell inside,
    Except.mapError]
  have known : engine.program.transition (buffers.current.getD cell 0)
      (fun state => (engine.program.neighbors buffers.current cell).count state) = _ :=
    sound.program.transition_eq declared (engine.program.countsAt buffers.current cell)
  rw [known]
  rfl

/-- What is foretold for a cell is what its successor shows, as long as a cell has room for
the number of all neighbours. -/
theorem map_nameOf_successor {engine : Engine} (few : engine.program.offsets.length < countLimit)
    (grid : Grid Nat) : (engine.program.successor grid).map engine.program.registry.nameOf =
      Grid.ofFn grid.shape (engine.foretold grid) := by
  rw [Program.successor, Grid.map_ofFn]
  apply Grid.ofFn_congr
  intro cell _
  rw [Program.keptCountsAt_eq few, foretold]

/-! ## All cells in some order -/

/-- Asks for the next states of some cells, one after the other, and notes the answers in
a grid of names. -/
def sweep (engine : Engine) (names : Grid String) (cells : List Vec) :
    Except EngineFault (Grid String) :=
  cells.foldlM (fun names cell => do return names.set cell (← engine.nextState cell)) names

private theorem sweep_eq_ok {engine : Engine} (sound : engine.Sound) {buffers : Buffers}
    (ready : engine.buffers = some buffers) {cells : List Vec}
    (inside : ∀ cell ∈ cells, isCell cell buffers.current.shape) {names : Grid String}
    (same : names.shape = buffers.current.shape) :
    ∃ noted, engine.sweep names cells = .ok noted ∧ noted.shape = buffers.current.shape ∧
      ∀ cell, noted.get? cell =
        if cell ∈ cells then some (engine.foretold buffers.current cell) else names.get? cell := by
  induction cells generalizing names with
  | nil => exact ⟨names, rfl, same, fun cell => by simp⟩
  | cons first cells ih =>
      rcases List.forall_mem_cons.mp inside with ⟨head, others⟩
      have head' : isCell first names.shape := same ▸ head
      have same' : (names.set first (engine.foretold buffers.current first)).shape =
        buffers.current.shape := same
      rcases ih others same' with ⟨noted, swept, shape_eq, shown⟩
      refine ⟨noted, ?_, shape_eq, ?_⟩
      · rw [sweep, List.foldlM_cons, sound.nextState_eq ready head]
        exact swept
      · intro cell
        rw [shown, Grid.get?_set _ head']
        by_cases again : cell ∈ cells
        · rw [if_pos again, if_pos (List.mem_cons_of_mem first again)]
        · rw [if_neg again]
          by_cases own : cell = first
          · rw [if_pos own, own, if_pos List.mem_cons_self]
          · rw [if_neg own, if_neg (by simp [own, again])]

/-- Whatever the order in which all cells are asked, and whatever was noted before, the
answers are the same. -/
theorem Sound.sweep_eq {engine : Engine} (sound : engine.Sound) {buffers : Buffers}
    (ready : engine.buffers = some buffers) {names : Grid String}
    (same : names.shape = buffers.current.shape) {order : List Vec}
    (complete : ∀ cell, cell ∈ order ↔ isCell cell buffers.current.shape) :
    engine.sweep names order =
      .ok (Grid.ofFn buffers.current.shape (engine.foretold buffers.current)) := by
  obtain ⟨noted, swept, shape_eq, shown⟩ :=
    sweep_eq_ok sound ready (fun cell member => (complete cell).mp member) same
  rw [swept]
  apply congrArg Except.ok
  apply Grid.eq_ofFn shape_eq
  intro cell inside
  rw [shown, if_pos ((complete cell).mpr inside)]

end Engine

/-! ## The step -/

/-- A step of an engine that is ready gives every cell the state that the engine foretells
for it, as long as a cell has room for the number of all neighbours. -/
theorem step_eq_nextState {source : String} {program : Program}
    (loaded : load source = .ok program) (few : program.offsets.length < countLimit)
    {engine : Engine} (reachable : Reachable program engine) {buffers : Buffers}
    (ready : engine.buffers = some buffers) :
    ∃ next picture,
      engine.step = .ok next ∧ next.snapshot = .ok picture ∧
      picture.grid.shape = buffers.current.shape ∧
      -- every cell shows what was foretold for it
      (∀ cell, isCell cell buffers.current.shape →
        ∃ name, engine.nextState cell = .ok name ∧ picture.get cell = .ok name) ∧
      -- the scratch grid does not matter
      (∀ scratch : Grid Nat, scratch.shape = buffers.current.shape →
        ({ engine with buffers := some ⟨buffers.current, scratch⟩ } : Engine).step = .ok next) ∧
      -- nor does the order in which the cells are asked
      (∀ (names : Grid String) (order : List Vec), names.shape = buffers.current.shape →
        (∀ cell, cell ∈ order ↔ isCell cell buffers.current.shape) →
        engine.sweep names order = .ok (picture.grid.map picture.registry.nameOf)) ∧
      -- in finite memory a step does the same, or there is no room for its counts
      ∀ memory,
        (program.countFault? memory buffers.current.shape program.census = none →
          engine.stepInMemory memory = .ok next) ∧
        ∀ fault, program.countFault? memory buffers.current.shape program.census = some fault →
          engine.stepInMemory memory = .error (.capacity fault) := by
  rcases loaded_of_load loaded with ⟨_, _, _, origin⟩
  have sound := reachable.sound origin.sound
  have same := reachable.program_eq
  have named := Engine.map_nameOf_successor (same.symm ▸ few) buffers.current
  have stepped := sound.step_eq ready
  refine ⟨engine.after buffers.current,
    ⟨engine.program.successor buffers.current, engine.program.registry, engine.generation + 1⟩,
    stepped, rfl, rfl, ?_, ?_, ?_, ?_⟩
  · intro cell inside
    refine ⟨_, sound.nextState_eq ready inside, ?_⟩
    have inside' : isCell cell (engine.program.successor buffers.current).shape := inside
    have own := congrArg (·.getD cell "") named
    simp only [Grid.getD_map inside' _ 0, Grid.getD_ofFn inside] at own
    rw [Snapshot.get, Grid.checkCoordinate_of_isCell inside', ok_bind, ← own]
    rfl
  · intro scratch same
    have buffered := sound.buffers buffers ready
    have sound' : ({ engine with buffers := some ⟨buffers.current, scratch⟩ } : Engine).Sound := by
      constructor
      · exact sound.program
      · intro others known
        obtain rfl := Option.some.inj known
        exact ⟨buffered.ranked, same, buffered.declared⟩
    have ready' : ({ engine with buffers := some ⟨buffers.current, scratch⟩ } : Engine).buffers =
      some ⟨buffers.current, scratch⟩ := rfl
    have stepped' := sound'.step_eq ready'
    exact stepped'
  · intro names order same complete
    rw [sound.sweep_eq ready same complete]
    exact congrArg Except.ok named.symm
  · intro memory
    rw [Engine.stepInMemory_of_ready ready, same]
    constructor
    · intro room
      rw [room]
      exact stepped
    · intro fault full
      rw [full]
      rfl

/-! ## A program with a ring of two cells -/

/-- A cell that holds `A` with another `A` on its right turns into `B`. -/
def ringSource : String :=
  "environment := 1D :: (x = 2) neighborhood := { x + 1 } states := { A :: default B }
   rules := { from A to B := neighborhood(A) >= 1 } boundary := wrap"

/-- What is read of the program. -/
def ringDeclarations : List Declaration :=
  [⟨⟨"environment", some ⟨1, 1⟩⟩, .environment ⟨1, [(⟨"x", some ⟨1, 23⟩⟩, 2)]⟩⟩,
    ⟨⟨"neighborhood", some ⟨1, 30⟩⟩,
      .neighborhood (.custom [⟨⟨"x", some ⟨1, 48⟩⟩, .plus, 1⟩])⟩,
    ⟨⟨"states", some ⟨1, 56⟩⟩,
      .states [⟨⟨"A", some ⟨1, 68⟩⟩, [.defaultMark]⟩, ⟨⟨"B", some ⟨1, 81⟩⟩, []⟩]⟩,
    ⟨⟨"rules", some ⟨2, 4⟩⟩,
      .rules [⟨⟨"A", some ⟨2, 20⟩⟩, ⟨"B", some ⟨2, 25⟩⟩,
        .test ⟨.atLeast, ⟨"A", some ⟨2, 43⟩⟩, 1⟩⟩]⟩,
    ⟨⟨"boundary", some ⟨2, 53⟩⟩, .boundary .wrap⟩]

theorem readProgram_ring : readProgram ringSource = .ok ringDeclarations := by
  apply eq_ok_of_toOption
  decide +kernel

/-- A neighbour on the right is the only one. -/
theorem offsets_right (place : Option Position) (n : Int) :
    (Neighborhood.custom [⟨⟨"x", place⟩, .plus, n⟩]).offsets 1 = .ok [[n]] := by
  have index : axisIndex? "x" = some 0 := by decide +kernel
  have single : "x" ≠ everyAxis := by decide
  have listed : (OffsetRule.mk ⟨"x", place⟩ .plus n).offsets 1 = .ok [[n]] := by
    simp only [OffsetRule.offsets, OffsetRule.axes, index, if_neg single]
    rfl
  rw [Neighborhood.offsets, List.mapM_cons, listed]
  exact congrArg Except.ok (sortedSet_singleton _ _)

/-- The neighbourhood is checked apart, as sorting is not evaluated. -/
theorem Outline.checkOffsets_right {outline : Outline} {place : Option Position} {n : Int}
    (spaced : outline.environment.map (fun entry => entry.2.rank) = some 1)
    (shaped : outline.neighborhood.map Prod.snd = some (.custom [⟨⟨"x", place⟩, .plus, n⟩]))
    (fine : (Neighborhood.custom [⟨⟨"x", place⟩, .plus, n⟩]).problems 1 = []) :
    outline.checkOffsets = .ok ([], some [[n]]) := by
  rcases Option.map_eq_some_iff.mp spaced with ⟨⟨_, space⟩, found, rank⟩
  rcases Option.map_eq_some_iff.mp shaped with ⟨⟨_, shape⟩, given, rfl⟩
  dsimp only at rank
  rw [checkOffsets, found, given]
  simp only [rank, checkNeighborhood, offsets_right, fine]
  rfl

theorem checkOffsets_ring :
    (Outline.ofProgram ringDeclarations).1.checkOffsets = .ok ([], some [[1]]) :=
  @Outline.checkOffsets_right _ (some ⟨1, 48⟩) 1 (by decide +kernel) (by decide +kernel)
    (by decide +kernel)

/-- A text whose evaluation ends with an engine is loaded, its program is as it was asked to be,
and the engine is what it starts with. -/
theorem exists_started {source : String} {p : Program → Prop} [DecidablePred p]
    (done : ((load source).toOption.bind fun program =>
      if p program then (Engine.start { program } none none).toOption else none).isSome = true) :
    ∃ program engine, load source = .ok program ∧ p program ∧
      Engine.start { program } none none = .ok engine := by
  rcases Option.isSome_iff_exists.mp done with ⟨engine, known⟩
  rcases Option.bind_eq_some_iff.mp known with ⟨program, loaded, known⟩
  rw [Option.ite_none_right_eq_some] at known
  exact ⟨program, engine, eq_ok_of_toOption loaded, known.1, eq_ok_of_toOption known.2⟩

/-- The program is loaded and can be started. -/
theorem load_ring : ∃ program engine, load ringSource = .ok program ∧
    (program.rank = 1 ∧ program.boundary = .wrap ∧ program.offsets = [[1]]) ∧
      Engine.start { program } none none = .ok engine := by
  apply exists_started
  rw [load, readValidated, readProgram_ring]
  simp only [bind, Except.bind, Except.mapError, validate, checkOffsets_ring]
  decide +kernel

theorem start_ring : ∃ program engine, load ringSource = .ok program ∧
    Engine.start { program } none none = .ok engine := by
  rcases load_ring with ⟨program, engine, loaded, _, started⟩
  exact ⟨program, engine, loaded, started⟩

theorem step_eq_nextState_ring : ∃ program engine buffers, load ringSource = .ok program ∧
    program.offsets.length < countLimit ∧ Reachable program engine ∧
    engine.buffers = some buffers ∧
    ∃ next picture, engine.step = .ok next ∧ next.snapshot = .ok picture ∧
      ∀ cell, isCell cell buffers.current.shape →
        ∃ name, engine.nextState cell = .ok name ∧ picture.get cell = .ok name := by
  rcases load_ring with ⟨program, engine, loaded, ⟨_, _, single⟩, started⟩
  have few : program.offsets.length < countLimit := by
    rw [single]
    decide
  have reachable : Reachable program engine := .started .fresh started
  rcases bind_eq_ok_iff.mp started with ⟨grid, _, known⟩
  obtain rfl := pure_eq_ok_iff.mp known
  obtain ⟨next, picture, stepped, shown, _, same, _⟩ :=
    step_eq_nextState loaded few reachable rfl
  exact ⟨program, _, _, loaded, few, reachable, rfl, next, picture, stepped, shown, same⟩

end Cellular
