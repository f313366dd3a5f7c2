import Cellular.Engine.Memory
import Cellular.Proofs.Engine.Evolution
import Cellular.Proofs.Engine.Prediction
import Cellular.Proofs.Semantics.Declared

/-!
# Runs say what the declarations say

A grid of numbers shows names. If the numbers are those of a loaded program, the step of
the grid shows what the declarations give for the names: neighbours, counts and rules by
number agree with neighbours, counts and rules by name. So the history of a run is the
sequence of generations that the declarations describe.
-/

namespace Cellular

/-- A grid shows a name at every cell: that of the state it holds, which is declared. -/
structure Grid.Shows (registry : Registry) (grid : Grid Nat) (names : Vec → String) : Prop where
  declared : ∀ cell, isCell cell grid.shape → grid.getD cell 0 < registry.states.length
  named : ∀ cell, isCell cell grid.shape → registry.nameOf (grid.getD cell 0) = names cell

theorem Grid.Shows.get? {registry : Registry} {grid : Grid Nat} {names : Vec → String}
    (shows : grid.Shows registry names) {cell : Vec} (inside : isCell cell grid.shape) :
    ∃ state, grid.get? cell = some state ∧ state < registry.states.length ∧
      registry.nameOf state = names cell :=
  ⟨_, Grid.get?_eq_some_getD inside 0, shows.declared cell inside, shows.named cell inside⟩

theorem Registry.nameOf_inj {registry : Registry} (distinct : registry.names.Nodup)
    {first second : Nat} (declared : first < registry.states.length)
    (declared' : second < registry.states.length) :
    registry.nameOf first = registry.nameOf second ↔ first = second := by
  constructor
  · intro same
    have known := Registry.indexOf?_nameOf distinct declared
    rw [same, Registry.indexOf?_nameOf distinct declared'] at known
    exact (Option.some.inj known).symm
  · rintro rfl
    rfl

/-! ## Neighbours -/

namespace Parts.Accepted

variable {parts : Parts} {validated : Validated}

theorem default?_eq (accepted : parts.Accepted validated) :
    validated.registry.default?.map State.name = parts.default? := by
  rw [accepted.registry]
  exact default?_checkStates accepted.entries

/-- A static boundary has the number of the name it is declared with. -/
theorem static_eq (accepted : parts.Accepted validated) {state : Option Name}
    (edge : parts.edge = .static state) :
    ∃ i < validated.registry.states.length,
      some (validated.registry.nameOf i) = (state.map Name.text).or parts.default? ∧
        validated.boundary = .static i := by
  have edged := accepted.boundary ⟨"", none⟩
  rw [edge] at edged
  cases state with
  | none =>
      simp only [checkBoundary] at edged
      split at edged
      · rename_i state known
        have boundary := Option.some.inj (Prod.mk.inj edged).2
        refine ⟨state.index.toNat, Registry.default?_lt known, ?_, boundary.symm⟩
        rw [← accepted.default?_eq, known,
          Registry.nameOf_of_getElem? (Registry.getElem?_of_default? known)]
        rfl
      · exact absurd (Prod.mk.inj edged).2 (by simp)
  | some state =>
      simp only [checkBoundary] at edged
      split at edged
      · rename_i i known
        have boundary := Option.some.inj (Prod.mk.inj edged).2
        refine ⟨i, Registry.indexOf?_lt known, ?_, boundary.symm⟩
        rw [Registry.nameOf_of_indexOf? known]
        rfl
      · exact absurd (Prod.mk.inj edged).2 (by simp)

/-- The state of a neighbour by number has the name that is seen there. -/
theorem neighborState_seen (accepted : parts.Accepted validated) {grid : Grid Nat}
    {names : Vec → String} (shows : grid.Shows validated.registry names) {cell offset : Vec}
    (inside : isCell cell grid.shape)
    (same : (Vec.add cell offset).length = grid.shape.length) :
    (∀ state, validated.boundary.neighborState grid cell offset = some state →
        state < validated.registry.states.length) ∧
      (validated.boundary.neighborState grid cell offset).map validated.registry.nameOf =
        parts.seen grid.shape names (Vec.add cell offset) := by
  by_cases within : isCell (Vec.add cell offset) grid.shape
  · rcases shows.get? within with ⟨state, found, declared, named⟩
    rw [Boundary.neighborState_of_isCell _ within, Parts.seen, if_pos within, found,
      Option.map_some, named]
    constructor
    · rintro other known
      rwa [← Option.some.inj known]
    · rfl
  · have edged := accepted.boundary ⟨"", none⟩
    rw [Parts.seen, if_neg within]
    cases edge : parts.edge with
    | void =>
        rw [edge] at edged
        have boundary := Option.some.inj (Prod.mk.inj edged).2
        rw [← boundary, Boundary.neighborState, Grid.get?_eq_none within]
        exact ⟨fun _ known => absurd known (by simp), rfl⟩
    | wrap =>
        rw [edge] at edged
        have boundary := Option.some.inj (Prod.mk.inj edged).2
        rcases shows.get? (isCell_wrapInto inside same) with ⟨state, found, declared, named⟩
        rw [← boundary, Boundary.neighborState, found, Option.map_some, named]
        constructor
        · rintro other known
          rwa [← Option.some.inj known]
        · rfl
    | static state =>
        rcases accepted.static_eq edge with ⟨i, declared, named, boundary⟩
        rw [boundary, Boundary.neighborState, Grid.getD_of_not_isCell within, Option.map_some,
          named]
        constructor
        · rintro other known
          rwa [← Option.some.inj known]
        · cases state <;> rfl

theorem neighborState_eq_some_iff (accepted : parts.Accepted validated) {grid : Grid Nat}
    {names : Vec → String} (shows : grid.Shows validated.registry names) {cell offset : Vec}
    (inside : isCell cell grid.shape) (same : (Vec.add cell offset).length = grid.shape.length)
    {state : Nat} (declared : state < validated.registry.states.length) :
    validated.boundary.neighborState grid cell offset = some state ↔
      parts.seen grid.shape names (Vec.add cell offset) =
        some (validated.registry.nameOf state) := by
  rcases accepted.neighborState_seen shows inside same with ⟨declared', seen⟩
  rw [← seen, Option.map_eq_some_iff]
  constructor
  · intro found
    exact ⟨state, found, rfl⟩
  · rintro ⟨other, found, named⟩
    rw [found, (Registry.nameOf_inj accepted.distinct (declared' other found) declared).mp named]

/-! ## Counts -/

private theorem ncard_eq_countP {α : Type} {items : List α} (distinct : items.Nodup)
    (p : α → Bool) : Set.ncard {a | a ∈ items ∧ p a = true} = items.countP p := by
  classical
  have listed : {a | a ∈ items ∧ p a = true} = ((items.filter p).toFinset : Set α) := by
    ext a
    simp
  rw [listed, Set.ncard_coe_finset, List.toFinset_card_of_nodup (distinct.filter p),
    List.countP_eq_length_filter]

/-- The neighbours in a state are counted by number as they are by name. -/
theorem countsAt_eq (accepted : parts.Accepted validated) {grid : Grid Nat}
    {names : Vec → String} (shows : grid.Shows validated.registry names)
    (ranked : grid.shape.length = validated.rank) {cell : Vec} (inside : isCell cell grid.shape)
    {state : Nat} (declared : state < validated.registry.states.length) :
    validated.compile.countsAt grid cell state =
      parts.count grid.shape names cell (validated.registry.nameOf state) := by
  have counted := ncard_eq_countP (Neighborhood.nodup_offsets accepted.offsets)
    fun offset => validated.boundary.neighborState grid cell offset == some state
  rw [Program.countsAt, Program.neighbors, List.count_filterMap, Parts.count, Nat.cast_inj]
  apply counted.symm.trans
  apply congrArg Set.ncard
  apply Set.ext
  intro offset
  rw [Set.mem_ofPred_eq, Set.mem_ofPred_eq, accepted.mem_offsets_iff, accepted.rank, beq_iff_eq]
  apply and_congr_right
  intro described
  apply accepted.neighborState_eq_some_iff shows inside _ declared
  rw [Vec.add, List.length_zipWith, length_eq_of_isCell inside, ranked, accepted.rank,
    Neighborhood.length_of_describes described, Nat.min_self]

end Parts.Accepted

/-! ## Rules -/

theorem Rule.ResolvesTo.appliesTo_iff {registry : Registry} {most : Option Nat}
    {rule : Rule Name} {resolved : Rule Nat} (resolves : rule.ResolvesTo registry most resolved)
    {named : String → Int} {numbered : Nat → Int}
    (same : ∀ name i, registry.indexOf? name = some i → numbered i = named name)
    (distinct : registry.names.Nodup) {state : Nat} (declared : state < registry.states.length) :
    resolved.appliesTo numbered state = true ↔ rule.Applies named (registry.nameOf state) := by
  rw [Rule.appliesTo, Bool.and_eq_true, beq_iff_eq, Rule.Applies]
  apply and_congr
  · rw [← Registry.nameOf_of_indexOf? resolves.source,
      Registry.nameOf_inj distinct (Registry.indexOf?_lt resolves.source) declared]
  · rw [resolves.value same]
    apply Condition.value_eq_true_iff
    intro test
    exact Comparison.holds_eq_true_iff ..

/-- The first rule by number that applies leads to the name that follows by the rules by
name. -/
theorem nameOf_find? {registry : Registry} {most : Option Nat} {rules : List (Rule Name)}
    {resolved : List (Rule Nat)}
    (resolves : List.Forall₂ (Rule.ResolvesTo registry most) rules resolved)
    {named : String → Int} {numbered : Nat → Int}
    (same : ∀ name i, registry.indexOf? name = some i → numbered i = named name)
    (distinct : registry.names.Nodup) {state : Nat} (declared : state < registry.states.length) :
    registry.nameOf
        (((resolved.find? (Rule.appliesTo numbered state)).map Rule.target).getD state) =
      nameAfter named (registry.nameOf state) rules := by
  induction resolves with
  | nil => rfl
  | @cons rule first _ _ own _ ih =>
      have applies := own.appliesTo_iff same distinct declared
      rw [nameAfter, List.find?_cons]
      cases fires : first.appliesTo numbered state with
      | true =>
          rw [if_pos (applies.mp fires)]
          exact Registry.nameOf_of_indexOf? own.target
      | false =>
          rw [if_neg (fun holds => by simp [applies.mpr holds] at fires)]
          exact ih

/-! ## Generations -/

namespace Loaded

variable {source : String} {program : Program} {declarations : List Declaration} {parts : Parts}
  {validated : Validated}

/-- For any counts, the next state by number has the name that the rules by name give. -/
theorem nameOf_follower_eq (loaded : Loaded source program declarations parts validated)
    {numbered : Nat → Int} {named : String → Int}
    (same : ∀ name i, program.registry.indexOf? name = some i → numbered i = named name)
    {state : Nat} (declared : state < program.registry.states.length) :
    program.registry.nameOf (program.follower numbered state) =
      nameAfter named (program.registry.nameOf state) parts.rules := by
  obtain rfl := loaded.compiled
  have row : validated.compile.clauses[state]? = some (clausesOf validated.rules state) := by
    rw [loaded.clauses_eq, List.getElem?_map, List.getElem?_range declared]
    rfl
  rw [Program.follower, row, Option.bind_some, firstFiring_clausesOf]
  exact nameOf_find? loaded.accepted.rules_resolve same loaded.accepted.distinct declared

/-- The next state by number has the name that the declarations give. -/
theorem nameOf_follower (loaded : Loaded source program declarations parts validated)
    {grid : Grid Nat} {names : Vec → String} (shows : grid.Shows program.registry names)
    (ranked : grid.shape.length = program.rank) {cell : Vec} (inside : isCell cell grid.shape) :
    program.registry.nameOf
        (program.follower (program.countsAt grid cell) (grid.getD cell 0)) =
      parts.next grid.shape names cell := by
  have same : ∀ name i, program.registry.indexOf? name = some i →
      program.countsAt grid cell i = parts.count grid.shape names cell name := by
    obtain rfl := loaded.compiled
    intro name i known
    rw [loaded.accepted.countsAt_eq shows ranked inside (Registry.indexOf?_lt known)]
    exact congrArg _ (Registry.nameOf_of_indexOf? known)
  rw [loaded.nameOf_follower_eq same (shows.declared cell inside), shows.named cell inside,
    Parts.next]

/-- A step of a grid shows what the declarations give next, as long as a cell has room for the
number of all neighbours. -/
theorem shows_successor (loaded : Loaded source program declarations parts validated)
    (few : program.offsets.length < countLimit) {grid : Grid Nat} {names : Vec → String}
    (shows : grid.Shows program.registry names)
    (ranked : grid.shape.length = program.rank) :
    (program.successor grid).Shows program.registry (parts.next grid.shape names) := by
  constructor
  · intro cell inside
    have inside' : isCell cell grid.shape := inside
    rw [Program.getD_successor _ inside']
    exact loaded.sound.follower_lt (shows.declared cell inside') _
  · intro cell inside
    have inside' : isCell cell grid.shape := inside
    rw [Program.getD_successor _ inside', Program.keptCountsAt_eq few]
    exact loaded.nameOf_follower shows ranked inside'

/-- Any number of steps shows as many further generations. -/
theorem shows_iterate (loaded : Loaded source program declarations parts validated)
    (few : program.offsets.length < countLimit) {grid : Grid Nat}
    {initial : Option (Table Vec String)} {i : Nat}
    (shows : grid.Shows program.registry (parts.generation grid.shape initial i))
    (ranked : grid.shape.length = program.rank) (n : Nat) :
    (program.successor^[n] grid).Shows program.registry
      (parts.generation grid.shape initial (i + n)) := by
  induction n generalizing grid i with
  | zero => exact shows
  | succ n ih =>
      have next : (program.successor grid).Shows program.registry
          (parts.generation grid.shape initial (i + 1)) := loaded.shows_successor few shows ranked
      rw [← Nat.add_assoc, Nat.add_right_comm]
      exact ih next ranked

end Loaded

/-! ## Histories -/

/-- A picture shows a generation of a program. -/
structure Snapshot.Depicts (parts : Parts) (states : Registry) (extents : List Nat)
    (initial : Option (Table Vec String)) (i : Nat) (picture : Snapshot) : Prop where
  generation : picture.generation = i
  shape : picture.grid.shape = extents
  registry : picture.registry = states
  shows : picture.grid.Shows states (parts.generation extents initial i)

theorem Snapshot.Depicts.get_eq {parts : Parts} {states : Registry} {extents : List Nat}
    {initial : Option (Table Vec String)} {i : Nat} {picture : Snapshot}
    (depicts : picture.Depicts parts states extents initial i) {cell : Vec}
    (inside : isCell cell extents) :
    picture.get cell = .ok (parts.generation extents initial i cell) := by
  have inside' : isCell cell picture.grid.shape := depicts.shape ▸ inside
  apply Snapshot.get_eq_ok_of_isCell inside'
  rw [depicts.registry, depicts.shows.named cell inside']

namespace Loaded

variable {source : String} {program : Program} {declarations : List Declaration} {parts : Parts}
  {validated : Validated}

/-- From an engine that shows some generation, the history shows this and the next
generations. -/
theorem history_eq (loaded : Loaded source program declarations parts validated)
    (few : program.offsets.length < countLimit) {engine : Engine} (sound : engine.Sound)
    (same : engine.program = program)
    {buffers : Buffers} (ready : engine.buffers = some buffers)
    {initial : Option (Table Vec String)}
    (shows : buffers.current.Shows program.registry
      (parts.generation buffers.current.shape initial engine.generation)) (n : Nat) :
    ∃ history, engine.history n = .ok history ∧ history.length = n + 1 ∧
      ∀ i (picture : Snapshot), history[i]? = some picture → picture.Depicts parts program.registry
        buffers.current.shape initial (engine.generation + i) := by
  have on : engine.IsOn program buffers.current :=
    ⟨same, buffers.scratch, ready, (sound.buffers buffers ready).same⟩
  have ranked : buffers.current.shape.length = program.rank :=
    same ▸ (sound.buffers buffers ready).ranked
  rcases on.exists_history loaded.sound ranked n with ⟨history, done, length, shown⟩
  use history, done, length
  intro i picture found
  obtain rfl := shown i picture found
  exact ⟨rfl, program.shape_iterate_successor _ i, rfl, loaded.shows_iterate few shows ranked i⟩

end Loaded

/-! ## Simulations -/

theorem Engine.history_of_historyInMemory {memory : Nat} {engine : Engine} {n : Nat}
    {history : List Snapshot} (done : engine.historyInMemory memory n = .ok history) :
    engine.history n = .ok history := by
  induction n generalizing engine history with
  | zero => exact done
  | succ n ih =>
      rcases bind_eq_ok_iff.mp done with ⟨present, shown, done⟩
      rcases bind_eq_ok_iff.mp done with ⟨next, stepped, done⟩
      rcases bind_eq_ok_iff.mp done with ⟨rest, later, done⟩
      rw [Engine.history, shown, Engine.step_of_stepInMemory stepped]
      simp only [bind, Except.bind, ih later]
      exact done

theorem load_of_loadInMemory {memory : Nat} {source : String} {program : Program}
    (done : loadInMemory memory source = .ok program) : load source = .ok program := by
  rcases bind_eq_ok_iff.mp done with ⟨validated, accepted, done⟩
  rcases bind_eq_ok_iff.mp accepted with ⟨declarations, read, accepted⟩
  rw [load, readValidated, read]
  split at accepted
  · exact absurd accepted (by simp [throw, throwThe, MonadExceptOf.throw, bind, Except.bind])
  · simp only [bind, Except.bind, accepted]
    exact done

theorem simulate_of_simulateInMemory {memory : Nat} {source : String} {n : Int}
    {dimensions : Option (List Scalar)} {initial : Option (Table Vec String)}
    {history : List Snapshot}
    (done : simulateInMemory memory source n dimensions initial = .ok history) :
    simulate source n dimensions initial = .ok history := by
  rcases bind_eq_ok_iff.mp done with ⟨program, loaded, done⟩
  rcases bind_eq_ok_iff.mp done with ⟨engine, started, done⟩
  rw [mapError_eq_ok_iff] at loaded started done
  rw [simulate, load_of_loadInMemory loaded]
  simp only [bind, Except.bind, Except.mapError, Engine.start_of_startInMemory started,
    Engine.history_of_historyInMemory done]

/-- The history of a program from any first grid is the sequence of generations that its
declarations describe, as long as a cell has room for the number of all neighbours. -/
theorem simulate_eq_generations {source : String} {program : Program}
    (loaded : load source = .ok program) (few : program.offsets.length < countLimit)
    {dimensions : Option (List Scalar)} {initial : Option (Table Vec String)} {engine : Engine}
    (started : Engine.start { program } dimensions initial = .ok engine) (n : Int) :
    ∃ declarations parts shape history,
      readProgram source = .ok declarations ∧ Parts.ofProgram? declarations = some parts ∧
      program.resolveDimensions dimensions = .ok shape ∧
      -- no cell is left without a name
      (∀ cell, isCell cell shape → (parts.first? initial cell).isSome) ∧
      simulate source n dimensions initial = .ok history ∧ history.length = n.toNat + 1 ∧
      (∀ i (picture : Snapshot), history[i]? = some picture →
        picture.generation = i ∧ picture.grid.shape = shape ∧
          ∀ cell, isCell cell shape →
            picture.get cell = .ok (parts.generation shape initial i cell)) ∧
      -- in finite memory a simulation has no other history, and has this one if there is room
      ∀ memory,
        (∀ other, simulateInMemory memory source n dimensions initial = .ok other →
          other = history) ∧
        (loadInMemory memory source = .ok program → storageFault? memory cellBytes shape = none →
          n.toNat = 0 ∨ program.countFault? memory shape program.census = none →
          simulateInMemory memory source n dimensions initial = .ok history) := by
  rcases loaded_of_load loaded with ⟨declarations, parts, validated, origin⟩
  have sound : engine.Sound := (Reachable.started .fresh started).sound origin.sound
  have started' := started
  rcases bind_eq_ok_iff.mp started' with ⟨grid, initialised, known⟩
  rw [mapError_eq_ok_iff] at initialised
  obtain rfl := pure_eq_ok_iff.mp known
  rcases Program.initialGrid_eq_ok initialised with ⟨resolved, shown⟩
  have first : ∀ cell, isCell cell grid.shape → parts.first? initial cell =
      some (program.registry.nameOf (grid.getD cell 0)) := by
    intro cell inside
    rw [Parts.first?, ← origin.accepted.default?_eq, ← origin.registry_eq]
    exact (shown cell inside).2
  have shows : grid.Shows program.registry (parts.generation grid.shape initial 0) := by
    refine ⟨fun cell inside => (shown cell inside).1, ?_⟩
    intro cell inside
    rw [Parts.generation, first cell inside, Option.getD_some]
  rcases origin.history_eq few sound rfl rfl shows n.toNat with ⟨history, done, length, depicted⟩
  have simulated : simulate source n dimensions initial = .ok history := by
    rw [simulate, loaded]
    simp only [bind, Except.bind, Except.mapError, started, done]
  refine ⟨declarations, parts, grid.shape, history, origin.read, origin.divided, resolved, ?_,
    simulated, length, ?_, ?_⟩
  · intro cell inside
    rw [first cell inside, Option.isSome_some]
  · intro i picture found
    have depicts := depicted i picture found
    rw [Nat.zero_add] at depicts
    exact ⟨depicts.generation, depicts.shape, fun cell inside => depicts.get_eq inside⟩
  · intro memory
    constructor
    · intro other done
      rw [simulate_of_simulateInMemory done] at simulated
      exact Except.ok.inj simulated
    · intro loads stored room
      have starts : Engine.startInMemory memory { program } dimensions initial =
          Engine.start { program } dimensions initial :=
        Engine.startInMemory_of_room fun other shaped => by
          rw [(Program.initialGrid_eq_ok_iff.mp initialised).1] at shaped
          exact Except.ok.inj shaped ▸ stored
      have on : Engine.IsOn ⟨program, some ⟨grid, Grid.fill grid.shape 0⟩, 0⟩ program grid :=
        ⟨rfl, Grid.fill grid.shape 0, rfl, rfl⟩
      have bounded := on.historyInMemory_eq origin.sound (sound.buffers _ rfl).ranked room
      rw [simulateInMemory, loads]
      simp only [bind, Except.bind, Except.mapError, starts, started, bounded, done]

theorem simulate_eq_generations_ring : ∃ program engine, load ringSource = .ok program ∧
    program.offsets.length < countLimit ∧ Engine.start { program } none none = .ok engine ∧
    ∃ declarations parts shape history,
      readProgram ringSource = .ok declarations ∧ Parts.ofProgram? declarations = some parts ∧
      simulate ringSource 2 none none = .ok history ∧ history.length = 3 ∧
      ∀ i (picture : Snapshot), history[i]? = some picture →
        ∀ cell, isCell cell shape →
          picture.get cell = .ok (parts.generation shape none i cell) := by
  rcases load_ring with ⟨program, engine, loaded, ⟨_, _, single⟩, started⟩
  have few : program.offsets.length < countLimit := by
    rw [single]
    decide
  obtain ⟨declarations, parts, shape, history, read, divided, _, _, done, length, shown, _⟩ :=
    simulate_eq_generations loaded few started 2
  exact ⟨program, engine, loaded, few, started, declarations, parts, shape, history, read, divided,
    done, length, fun i picture found => (shown i picture found).2.2⟩

end Cellular
