import Cellular.Engine.History
import Cellular.Proofs.Engine.Evolution
import Cellular.Proofs.Engine.InPlace
import Cellular.Proofs.Source.Range
import Cellular.Proofs.Validation.Replaced

/-!
# What is not counted does not count

A step looks at a cell and at the counts around it, and of these at the counts of the states
that some rule compares. So cells with the same state and the same such counts turn into the
same, in one grid or in two, whatever else lies around them.

In particular a state beyond the edge that no rule compares might as well be missing. Such a
program can be opened: with nothing beyond the edge it starts on the same inputs and runs to
the same pictures, although inside the grid the state goes on to be counted.
-/

namespace Cellular

/-! ## Counts that are read -/

/-- Two counts agree on some states. -/
def AgreeOn (states : List Nat) (counts other : Nat → Int) : Prop :=
  ∀ state ∈ states, counts state = other state

theorem CountTest.value_congr {σ : Type} {counts other : σ → Int} {test : CountTest σ}
    (same : counts test.state = other test.state) : test.value counts = test.value other := by
  rw [value, value, same]

theorem firstFiring_congr {counts other : Nat → Int} {clauses : List Clause}
    (same : ∀ clause ∈ clauses, ∀ test ∈ clause.condition.tests,
      counts test.state = other test.state) :
    firstFiring counts clauses = firstFiring other clauses := by
  induction clauses with
  | nil => rfl
  | cons clause rest ih =>
      rcases List.forall_mem_cons.mp same with ⟨first, others⟩
      have fires : clause.fires counts = clause.fires other :=
        Condition.value_congr fun test occurs => CountTest.value_congr (first test occurs)
      have later := ih others
      rw [firstFiring, firstFiring] at later ⊢
      rw [List.find?_cons, List.find?_cons, fires]
      cases clause.fires other with
      | true => rfl
      | false => exact later

namespace Program

variable {program other : Program} {counts counts' : Nat → Int}

/-- The clauses of a state read counts of the census only. -/
theorem firstFiring_of_census (same : AgreeOn program.census counts counts')
    {clauses : List Clause} (row : clauses ∈ program.clauses) :
    firstFiring counts clauses = firstFiring counts' clauses := by
  apply firstFiring_congr
  intro clause member test occurs
  exact same test.state (mem_census_iff.mpr ⟨clauses, row, clause, member, test, occurs, rfl⟩)

theorem transition_congr (same : AgreeOn program.census counts counts') (state : Int) :
    program.transition state counts = program.transition state counts' := by
  rw [transition, transition]
  cases known : state.toNat?.bind fun index => program.clauses[index]? with
  | none => rfl
  | some clauses =>
      rcases Option.bind_eq_some_iff.mp known with ⟨index, _, found⟩
      simp only [firstTarget_eq, firstFiring_of_census same (List.mem_of_getElem? found)]

theorem follower_congr (clauses : other.clauses = program.clauses)
    (same : AgreeOn program.census counts counts') (state : Nat) :
    other.follower counts' state = program.follower counts state := by
  rw [follower, follower, clauses]
  cases found : program.clauses[state]? with
  | none => rfl
  | some row =>
      rw [Option.bind_some, Option.bind_some,
        firstFiring_of_census same (List.mem_of_getElem? found)]

/-- Cells with the same state and the same counts of the census turn into the same. -/
theorem get?_successor_congr (clauses : other.clauses = program.clauses) {grid grid' : Grid Nat}
    {cell cell' : Vec} (state : grid'.get? cell' = grid.get? cell)
    (same : AgreeOn program.census (program.countsAt grid cell) (other.countsAt grid' cell')) :
    (other.successor grid').get? cell' = (program.successor grid).get? cell := by
  have kept : AgreeOn program.census (program.keptCountsAt grid cell)
      (other.keptCountsAt grid' cell') := fun state counted =>
    keptCountsAt_congr (same state counted)
  rw [get?_successor, get?_successor, state, funext (follower_congr clauses kept)]

theorem census_congr (clauses : other.clauses = program.clauses) :
    other.census = program.census := by
  rw [census, census, clauses]

/-- Of all that is counted around the cells of a grid, a step uses the counts of the census. -/
theorem nextGrid_congr (clauses : other.clauses = program.clauses) {buffers : Buffers}
    (same : ∀ counted ∈ program.census,
      countGrid buffers.current.shape
          (other.boundary.neighborGrids buffers.current other.offsets) counted =
        countGrid buffers.current.shape
          (program.boundary.neighborGrids buffers.current program.offsets) counted) :
    other.nextGrid buffers = program.nextGrid buffers := by
  have counted : other.countGrids buffers.current program.census =
      program.countGrids buffers.current program.census :=
    List.map_congr_left fun state member => congrArg (state, ·) (same state member)
  rw [nextGrid, nextGrid, clauses, census_congr clauses, counted]

end Program

/-! ## Opening the border -/

/-- Beyond the edge lies a state that no rule compares. -/
def Program.BorderUncounted (program : Program) : Prop :=
  ∃ outside, program.boundary = .static outside ∧ outside ∉ program.census

/-- The program with nothing beyond the edge. -/
def Program.opened (program : Program) (warnings : List Warning) : Program :=
  { program with boundary := .void, warnings }

/-- The engine with nothing beyond the edge. -/
def Engine.opened (engine : Engine) (warnings : List Warning) : Engine :=
  { engine with program := engine.program.opened warnings }

namespace Program

variable {program : Program} (warnings : List Warning)

/-- All neighbours but those beyond the edge are still there. -/
theorem count_neighbors_opened {outside : Nat} (border : program.boundary = .static outside)
    (grid : Grid Nat) (cell : Vec) {state : Nat} (other : state ≠ outside) :
    ((program.opened warnings).neighbors grid cell).count state =
      (program.neighbors grid cell).count state := by
  rw [neighbors, neighbors, border, List.count_filterMap, List.count_filterMap]
  apply List.countP_congr
  intro offset _
  have opened_state : (program.opened warnings).boundary.neighborState grid cell offset =
      grid.get? (Vec.add cell offset) := rfl
  have framed_state : (Boundary.static outside).neighborState grid cell offset =
      some ((grid.get? (Vec.add cell offset)).getD outside) := rfl
  rw [opened_state, framed_state]
  cases grid.get? (Vec.add cell offset) with
  | some own => rfl
  | none => simp [other.symm]

theorem BorderUncounted.agreeOn_opened (free : program.BorderUncounted) (grid : Grid Nat)
    (cell : Vec) :
    AgreeOn program.census (program.countsAt grid cell)
      ((program.opened warnings).countsAt grid cell) := by
  rcases free with ⟨outside, border, uncounted⟩
  intro state counted
  have other : state ≠ outside := fun same => uncounted (same ▸ counted)
  rw [countsAt, countsAt, count_neighbors_opened warnings border grid cell other]

theorem BorderUncounted.successor_opened (free : program.BorderUncounted) (grid : Grid Nat) :
    (program.opened warnings).successor grid = program.successor grid := by
  have clauses : (program.opened warnings).clauses = program.clauses := rfl
  have shape := (shape_successor (program.opened warnings) grid).trans
    (shape_successor program grid).symm
  apply Grid.ext_get? shape
  intro cell _
  exact get?_successor_congr clauses rfl (free.agreeOn_opened warnings grid cell)

/-- A frame takes the same room whatever stands in it. -/
theorem BorderUncounted.countFault?_opened (free : program.BorderUncounted) (bytes : Nat)
    (shape states : List Nat) :
    (program.opened warnings).countFault? bytes shape states =
      program.countFault? bytes shape states := by
  rcases free with ⟨outside, border, _⟩
  have room : (program.opened warnings).boundary.roomFault? bytes shape program.offsets =
      program.boundary.roomFault? bytes shape program.offsets := by
    rw [border]
    cases program.offsets <;> rfl
  exact congrArg (fun fault => if states.isEmpty then none else fault) room

theorem Sound.opened (sound : program.Sound) : (program.opened warnings).Sound :=
  ⟨sound.covers, sound.branching, sound.target_lt, sound.ranked, sound.sized⟩

end Program

namespace Engine

variable {engine : Engine} {memory : Option Nat} (warnings : List Warning)

/-- An engine starts on the same inputs whatever lies beyond the edge. -/
theorem start_opened (engine : Engine) (dimensions : Option (List Scalar))
    (initial : Option (Table Vec String)) :
    (engine.opened warnings).start dimensions initial =
      (engine.start dimensions initial).map (opened · warnings) := by
  have grids : (engine.opened warnings).program.initialGrid dimensions initial =
    engine.program.initialGrid dimensions initial := rfl
  rw [start, start, grids]
  cases engine.program.initialGrid dimensions initial <;> rfl

theorem startWithin_opened (engine : Engine) (dimensions : Option (List Scalar))
    (initial : Option (Table Vec String)) :
    (engine.opened warnings).startWithin memory dimensions initial =
      (engine.startWithin memory dimensions initial).map (opened · warnings) := by
  have unbounded := start_opened warnings engine dimensions initial
  cases memory with
  | none => exact unbounded
  | some bytes =>
      have room : InPlace.startRoom bytes dimensions initial (engine.opened warnings) =
        InPlace.startRoom bytes dimensions initial engine := rfl
      rw [startWithin, startWithin, InPlace.startInMemory_eq, InPlace.startInMemory_eq, room,
        unbounded]
      cases InPlace.startRoom bytes dimensions initial engine <;> rfl

theorem Sound.opened (sound : engine.Sound) : (engine.opened warnings).Sound := by
  constructor
  · exact sound.program.opened warnings
  · intro buffers ready
    have buffered := sound.buffers buffers ready
    exact ⟨buffered.ranked, buffered.same, buffered.declared⟩

theorem step_of_stepWithin {next : Engine} (done : engine.stepWithin memory = .ok next) :
    engine.step = .ok next := by
  cases memory with
  | none => exact done
  | some bytes => exact step_of_stepInMemory done

/-- The counts of a step take the same room. -/
theorem stepRoom_opened (free : engine.program.BorderUncounted) (bytes : Nat) :
    InPlace.stepRoom bytes (engine.opened warnings) = InPlace.stepRoom bytes engine := by
  have grids : (engine.opened warnings).require "step" = engine.require "step" := rfl
  rw [InPlace.stepRoom, InPlace.stepRoom, grids]
  cases engine.require "step" with
  | error fault => rfl
  | ok grid => exact congrArg requireRoom (free.countFault?_opened warnings bytes _ _)

section Uncounted

variable (sound : engine.Sound) (free : engine.program.BorderUncounted)

include sound free

/-- A border that is not counted does not change a step. -/
theorem step_opened : (engine.opened warnings).step = engine.step.map (opened · warnings) := by
  cases ready : engine.buffers with
  | none =>
      have ready' : (engine.opened warnings).buffers = none := ready
      rw [step, step, requireBuffers, requireBuffers, ready, ready']
      rfl
  | some buffers =>
      have ready' : (engine.opened warnings).buffers = some buffers := ready
      have grids := free.successor_opened warnings buffers.current
      have program : (engine.opened warnings).program = engine.program.opened warnings := rfl
      rw [sound.step_eq ready, (sound.opened warnings).step_eq ready', after, program, grids]
      rfl

theorem stepWithin_opened :
    (engine.opened warnings).stepWithin memory =
      (engine.stepWithin memory).map (opened · warnings) := by
  have unbounded := step_opened warnings sound free
  cases memory with
  | none => exact unbounded
  | some bytes =>
      rw [stepWithin, stepWithin, InPlace.stepInMemory_eq, InPlace.stepInMemory_eq,
        stepRoom_opened warnings free, unbounded]
      cases InPlace.stepRoom bytes engine <;> rfl

omit sound free in
/-- Nor does it change any number of steps. -/
theorem stepsWithin_opened (sound : engine.Sound) (free : engine.program.BorderUncounted)
    (n : Nat) :
    (engine.opened warnings).stepsWithin memory n =
      (engine.stepsWithin memory n).map (opened · warnings) := by
  induction n generalizing engine with
  | zero => cases memory <;> rfl
  | succ n ih =>
      rw [stepsWithin_succ, stepsWithin_succ, stepWithin_opened warnings sound free]
      cases done : engine.stepWithin memory with
      | error fault => rfl
      | ok next =>
          have stepped := step_of_stepWithin done
          have free' : next.program.BorderUncounted := by rwa [program_of_step stepped]
          exact ih (sound.step stepped) free'

/-- So runs come to the same pictures. -/
theorem runWithin_opened (generations : Int) :
    (engine.opened warnings).runWithin memory generations =
      (engine.runWithin memory generations).map fun (next, picture) =>
        (next.opened warnings, picture) := by
  rw [runWithin_eq, runWithin_eq, stepsWithin_opened warnings sound free]
  cases engine.stepsWithin memory generations.toNat with
  | error fault => rfl
  | ok next =>
      have pictures : (next.opened warnings).snapshot = next.snapshot := rfl
      change ((next.opened warnings).snapshot >>= _) = Except.map _ (next.snapshot >>= _)
      rw [pictures]
      cases next.snapshot <;> rfl

theorem run_opened (generations : Int) :
    (engine.opened warnings).run generations =
      (engine.run generations).map fun (next, picture) => (next.opened warnings, picture) :=
  @runWithin_opened engine none warnings sound free generations

omit sound free in
theorem history_opened (sound : engine.Sound) (free : engine.program.BorderUncounted) (n : Nat) :
    (engine.opened warnings).history n = engine.history n := by
  have pictures (engine : Engine) : (engine.opened warnings).snapshot = engine.snapshot := rfl
  induction n generalizing engine with
  | zero => rw [history, history, pictures]
  | succ n ih =>
      rw [history, history, pictures, step_opened warnings sound free]
      cases done : engine.step with
      | error fault => rfl
      | ok next =>
          have free' : next.program.BorderUncounted := by rwa [program_of_step done]
          have later := ih (sound.step done) free'
          cases engine.snapshot with
          | error fault => rfl
          | ok picture =>
              rw [ok_bind, ok_bind]
              change ((next.opened warnings).history n >>= _) = (next.history n >>= _)
              rw [later]

end Uncounted

end Engine

/-! ## Runs of opened programs -/

theorem Reachable.borderUncounted {program : Program} {engine : Engine}
    (reachable : Reachable program engine) (free : program.BorderUncounted) :
    engine.program.BorderUncounted := by
  rwa [reachable.program_eq]

section Runs

variable {program : Program} (sound : program.Sound) (free : program.BorderUncounted)
  (warnings : List Warning)

include sound free

/-- What is reached with a border that is not counted is reached without it. -/
theorem Reachable.opened {engine : Engine} (reachable : Reachable program engine) :
    Reachable (program.opened warnings) (engine.opened warnings) := by
  induction reachable with
  | fresh => exact .fresh
  | @started engine next dimensions initial before done ih =>
      have done' := engine.start_opened warnings dimensions initial
      rw [done] at done'
      exact ih.started done'
  | @stepped engine next before done ih =>
      have done' := Engine.step_opened warnings (before.sound sound) (before.borderUncounted free)
      rw [done] at done'
      exact ih.stepped done'
  | @ran engine next generations picture before done ih =>
      have done' := Engine.run_opened warnings (before.sound sound)
        (before.borderUncounted free) generations
      rw [done] at done'
      exact ih.ran done'

/-- What is reached without the border is reached with it. -/
theorem exists_of_reachable_opened {opened : Engine}
    (reachable : Reachable (program.opened warnings) opened) :
    ∃ engine, Reachable program engine ∧ opened = engine.opened warnings := by
  induction reachable with
  | fresh => exact ⟨_, .fresh, rfl⟩
  | @started opened next dimensions initial _ done ih =>
      rcases ih with ⟨engine, before, rfl⟩
      have started := (engine.start_opened warnings dimensions initial).symm.trans done
      rcases map_eq_ok_iff.mp started with ⟨other, first, rfl⟩
      exact ⟨other, before.started first, rfl⟩
  | @stepped opened next _ done ih =>
      rcases ih with ⟨engine, before, rfl⟩
      have steps := Engine.step_opened warnings (before.sound sound) (before.borderUncounted free)
      have stepped := steps.symm.trans done
      rcases map_eq_ok_iff.mp stepped with ⟨other, first, rfl⟩
      exact ⟨other, before.stepped first, rfl⟩
  | @ran opened next generations picture _ done ih =>
      rcases ih with ⟨engine, before, rfl⟩
      have runs := Engine.run_opened warnings (before.sound sound) (before.borderUncounted free)
        generations
      have ran := runs.symm.trans done
      rcases map_eq_ok_iff.mp ran with ⟨⟨other, shown⟩, first, same⟩
      obtain ⟨rfl, rfl⟩ := Prod.mk.inj same
      exact ⟨other, before.ran first, rfl⟩

end Runs

/-! ## Loading opened programs -/

/-- A program with a static boundary declares it. -/
theorem isSome_valueOf_boundary {declarations : List Declaration} {validated : Validated}
    {outside : Nat} (accepted : validate declarations = .ok validated)
    (border : validated.boundary = .static outside) :
    (valueOf declarations .boundary).isSome := by
  rcases accepted_of_validate accepted with ⟨parts, divided, passes⟩
  rcases Parts.ofProgram?_eq_some_iff.mp divided with ⟨_, _, _, _, bounded⟩
  cases given : valueOf declarations .boundary with
  | some edge => rfl
  | none =>
      rw [given] at bounded
      have resolved := passes.boundary ⟨"", none⟩
      rw [← bounded, border] at resolved
      exact absurd (Prod.mk.inj resolved).2 nofun

/-- A source text with a static boundary can be written with nothing beyond the edge, and
whatever text says so is loaded as the opened program. -/
theorem load_opened {source : String} {program : Program} (loaded : load source = .ok program)
    {outside : Nat} (border : program.boundary = .static outside) :
    ∃ declarations, readProgram source = .ok declarations ∧
      (∃ text read, readProgram text = .ok read ∧ read.map Declaration.anchored =
        (assign .boundary (.boundary .void) declarations).map Declaration.anchored) ∧
      ∀ text read, readProgram text = .ok read → read.map Declaration.anchored =
          (assign .boundary (.boundary .void) declarations).map Declaration.anchored →
        ∃ warnings, load text = .ok (program.opened warnings) := by
  rcases load_eq_ok_iff.mp loaded with ⟨declarations, validated, done, accepted, rfl⟩
  have declared := isSome_valueOf_boundary accepted border
  have replaced : validate (assign .boundary (.boundary .void) declarations) =
      .ok { validated with boundary := .void } :=
    validate_assign_boundary accepted declared fun _ => rfl
  use declarations, done
  constructor
  · have readable : ∀ declaration ∈ assign .boundary (.boundary .void) declarations,
        declaration.Readable :=
      readable_assign (by trivial) (readable_of_readProgram done)
    exact ⟨_, readProgram_programText readable⟩
  · intro text read again same
    rcases validate_of_anchored same replaced with ⟨warnings, accepted'⟩
    exact ⟨warnings, load_eq_ok_iff.mpr ⟨read, _, again, accepted', rfl⟩⟩

/-- The pictures of a simulation are those of the opened program. -/
theorem simulate_opened {source text : String} {program : Program} {warnings : List Warning}
    (loaded : load source = .ok program) (sound : program.Sound) (free : program.BorderUncounted)
    (loaded' : load text = .ok (program.opened warnings)) (generations : Int)
    (dimensions : Option (List Scalar)) (initial : Option (Table Vec String)) :
    simulate text generations dimensions initial =
      simulate source generations dimensions initial := by
  have starts := Engine.start_opened warnings { program } dimensions initial
  rw [simulate, simulate, loaded, loaded']
  simp only [Except.mapError, ok_bind]
  change (Except.mapError _ (Engine.start (Engine.opened { program } warnings) dimensions initial)
    >>= _) = _
  rw [starts]
  cases started : Engine.start { program } dimensions initial with
  | error fault => rfl
  | ok engine =>
      have reached := Reachable.fresh.started started
      have histories := Engine.history_opened warnings (reached.sound sound)
        (reached.borderUncounted free) generations.toNat
      exact congrArg (Except.mapError SimulationFault.engine) histories

/-! ## Borders that are not counted -/

/-- A step uses no counts but those of the census: of one cell or of all cells at once, and
for cells in different grids of different programs with the same clauses. So a border in a
state that is not in the census may be left out of a source text: the text is loaded again,
starts on the same inputs, and runs to the same pictures. -/
theorem uncounted_border_opened (program : Program) :
    ((∀ (state : Int) (counts other : Nat → Int), AgreeOn program.census counts other →
        program.transition state counts = program.transition state other) ∧
      (∀ (other : Program) (buffers : Buffers), other.clauses = program.clauses →
        (∀ counted ∈ program.census,
          Program.countGrid buffers.current.shape
              (other.boundary.neighborGrids buffers.current other.offsets) counted =
            Program.countGrid buffers.current.shape
              (program.boundary.neighborGrids buffers.current program.offsets) counted) →
        other.nextGrid buffers = program.nextGrid buffers) ∧
      ∀ other : Program, program.Sound → other.Sound → other.clauses = program.clauses →
        ∀ (engine engine' : Engine) (grid grid' : Grid Nat), engine.IsOn program grid →
          engine'.IsOn other grid' → grid.shape.length = program.rank →
          grid'.shape.length = other.rank →
          ∃ next next' after after', engine.step = .ok next ∧ engine'.step = .ok next' ∧
            next.current = some after ∧ next'.current = some after' ∧
            ∀ cell cell', grid'.get? cell' = grid.get? cell →
              AgreeOn program.census (program.countsAt grid cell) (other.countsAt grid' cell') →
              after'.get? cell' = after.get? cell) ∧
    ∀ source, load source = .ok program → program.Sound ∧
      ∀ outside, program.boundary = .static outside → outside ∉ program.census →
        ∃ declarations, readProgram source = .ok declarations ∧
          (∃ text read, readProgram text = .ok read ∧ read.map Declaration.anchored =
            (assign .boundary (.boundary .void) declarations).map Declaration.anchored) ∧
          ∀ text read, readProgram text = .ok read → read.map Declaration.anchored =
              (assign .boundary (.boundary .void) declarations).map Declaration.anchored →
            ∃ warnings, load text = .ok (program.opened warnings) ∧
              (∀ memory dimensions initial,
                Engine.startWithin memory { program := program.opened warnings } dimensions
                    initial =
                  (Engine.startWithin memory { program } dimensions initial).map
                    (Engine.opened · warnings)) ∧
              (∀ engine, Reachable program engine →
                Reachable (program.opened warnings) (engine.opened warnings) ∧
                ∀ memory generations,
                  (engine.opened warnings).runWithin memory generations =
                    (engine.runWithin memory generations).map fun (next, picture) =>
                      (next.opened warnings, picture)) ∧
              (∀ opened, Reachable (program.opened warnings) opened →
                ∃ engine, Reachable program engine ∧ opened = engine.opened warnings) ∧
              ∀ generations dimensions initial,
                simulate text generations dimensions initial =
                  simulate source generations dimensions initial := by
  constructor
  · constructor
    · exact fun state counts other same => Program.transition_congr same state
    constructor
    · exact fun other buffers clauses same => Program.nextGrid_congr clauses same
    · intro other sound sound' clauses engine engine' grid grid' on on' ranked ranked'
      rcases on.step sound ranked with ⟨next, stepped, onNext⟩
      rcases on'.step sound' ranked' with ⟨next', stepped', onNext'⟩
      refine ⟨next, next', _, _, stepped, stepped', onNext.current, onNext'.current, ?_⟩
      exact fun cell cell' state same => Program.get?_successor_congr clauses state same
  · intro source loaded
    rcases loaded_of_load loaded with ⟨_, _, _, origin⟩
    have sound := origin.sound
    use sound
    intro outside border uncounted
    have free : program.BorderUncounted := ⟨outside, border, uncounted⟩
    rcases load_opened loaded border with ⟨declarations, done, exists_text, each⟩
    use declarations, done, exists_text
    intro text read again same
    rcases each text read again same with ⟨warnings, loaded'⟩
    use warnings, loaded'
    constructor
    · exact fun memory dimensions initial =>
        Engine.startWithin_opened warnings { program } dimensions initial
    constructor
    · intro engine reachable
      have free' := reachable.borderUncounted free
      constructor
      · exact reachable.opened sound free warnings
      · exact fun memory generations =>
          Engine.runWithin_opened warnings (reachable.sound sound) free' generations
    constructor
    · exact fun opened reachable => exists_of_reachable_opened sound free warnings reachable
    · exact simulate_opened loaded sound free loaded'

/-! ## A row between cells that are not counted -/

/-- The ring of two cells as a row, between cells in a state that no rule compares. -/
def borderedSource : String :=
  "environment := 1D :: (x = 2) neighborhood := { x + 1 } states := { A :: default B }
   rules := { from A to B := neighborhood(A) >= 1 } boundary := static :: (B)"

/-- The parts of the program. -/
def borderedParts : Parts where
  space := ⟨1, [(⟨"x", some ⟨1, 23⟩⟩, 2)]⟩
  shape := .custom [⟨⟨"x", some ⟨1, 48⟩⟩, .plus, 1⟩]
  edge := .static (some ⟨"B", some ⟨2, 76⟩⟩)
  entries := [⟨⟨"A", some ⟨1, 68⟩⟩, [.defaultMark]⟩, ⟨⟨"B", some ⟨1, 81⟩⟩, []⟩]
  rules := [⟨⟨"A", some ⟨2, 20⟩⟩, ⟨"B", some ⟨2, 25⟩⟩, .test ⟨.atLeast, ⟨"A", some ⟨2, 43⟩⟩, 1⟩⟩]

/-- What is read of the program. -/
def borderedDeclarations : List Declaration :=
  [⟨⟨"environment", some ⟨1, 1⟩⟩, .environment borderedParts.space⟩,
    ⟨⟨"neighborhood", some ⟨1, 30⟩⟩, .neighborhood borderedParts.shape⟩,
    ⟨⟨"states", some ⟨1, 56⟩⟩, .states borderedParts.entries⟩,
    ⟨⟨"rules", some ⟨2, 4⟩⟩, .rules borderedParts.rules⟩,
    ⟨⟨"boundary", some ⟨2, 53⟩⟩, .boundary borderedParts.edge⟩]

/-- What validation makes of it. -/
def borderedValidated : Validated where
  rank := 1
  sizes := [some 2]
  offsets := [[1]]
  boundary := .static 1
  registry := (checkStates borderedParts.entries).registry
  rules := [⟨0, 1, .test ⟨.atLeast, 0, 1⟩⟩]
  warnings := []

theorem accepted_bordered : borderedParts.Accepted borderedValidated where
  rank := rfl
  sizes := rfl
  space := rfl
  shape := rfl
  offsets := offsets_right _ _
  nonempty := nofun
  entries := rfl
  registry := rfl
  boundary := fun _ => rfl
  rules := rfl

theorem load_bordered : load borderedSource = .ok borderedValidated.compile := by
  apply load_eq_ok_iff.mpr
  use borderedDeclarations, borderedValidated
  constructor
  · apply eq_ok_of_toOption
    decide +kernel
  constructor
  · apply validate_eq_ok_iff_accepted.mpr
    constructor
    · constructor
      · intro declaration member
        simp only [borderedDeclarations, List.mem_cons, List.not_mem_nil, or_false] at member
        rcases member with rfl | rfl | rfl | rfl | rfl
        · exact ⟨.environment, rfl, trivial⟩
        · exact ⟨.neighborhood, rfl, trivial⟩
        · exact ⟨.states, rfl, trivial⟩
        · exact ⟨.rules, rfl, trivial⟩
        · exact ⟨.boundary, rfl, trivial⟩
      · exact ⟨by decide, by decide⟩
    · exact ⟨borderedParts, rfl, accepted_bordered⟩
  · rfl

/-- Only the first state is compared. -/
theorem uncounted_bordered : 1 ∉ borderedValidated.compile.census := by
  intro counted
  rcases Program.mem_census_iff.mp counted with ⟨clauses, row, clause, member, test, occurs, same⟩
  rcases Validated.clause_cases row member with ⟨always, _⟩ | ⟨rule, inRules, rfl⟩
  · rw [always] at occurs
    exact absurd occurs List.not_mem_nil
  · obtain rfl := List.mem_singleton.mp inRules
    obtain rfl := List.mem_singleton.mp occurs
    exact absurd same nofun

/-- The row may be written without its border. -/
theorem uncounted_border_opened_row : ∃ program engine text warnings,
    load borderedSource = .ok program ∧ program.boundary = .static 1 ∧ 1 ∉ program.census ∧
      Engine.start { program } none none = .ok engine ∧
      load text = .ok (program.opened warnings) ∧
      ∀ generations dimensions initial,
        simulate text generations dimensions initial =
          simulate borderedSource generations dimensions initial := by
  obtain ⟨_, loads⟩ := uncounted_border_opened borderedValidated.compile
  obtain ⟨_, opens⟩ := loads borderedSource load_bordered
  obtain ⟨declarations, _, ⟨text, read, again, same⟩, each⟩ := opens 1 rfl uncounted_bordered
  obtain ⟨warnings, loaded, _, _, _, pictures⟩ := each text read again same
  exact ⟨borderedValidated.compile, _, text, warnings, load_bordered, rfl, uncounted_bordered, rfl,
    loaded, pictures⟩

end Cellular
