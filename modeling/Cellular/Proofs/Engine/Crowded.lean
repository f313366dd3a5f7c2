import Cellular.Proofs.Engine.Handshake
import Cellular.Proofs.Semantics.Refinement
import Cellular.Proofs.Validation.Acceptance

/-!
# Crowded cells

On a torus with a single cell every neighbour is the cell itself, so it counts its own state
once for every offset. A single cell is counted for with numbers of any size, but the counts of
a whole grid are kept in cells. If a cell has no room for the number of offsets, the two ways of
counting differ. Then a step goes on from other counts than those that the declarations speak
of.
-/

namespace Cellular

/-! ## A torus with one cell -/

/-- On a torus without another cell, a cell is its own neighbour at every offset. -/
theorem Program.neighbors_eq_replicate {program : Program} {grid : Grid Nat} {cell : Vec}
    (torus : program.boundary = .wrap)
    (ranked : ∀ offset ∈ program.offsets, offset.length = grid.shape.length)
    (inside : isCell cell grid.shape) (single : ∀ other, isCell other grid.shape → other = cell) :
    program.neighbors grid cell =
      List.replicate program.offsets.length (grid.getD cell 0) := by
  have length := program.length_neighbors ranked inside
  rw [neighborhoodSize, torus] at length
  rw [List.eq_replicate_iff]
  refine ⟨length, fun state member => ?_⟩
  rcases List.mem_filterMap.mp member with ⟨offset, own, seen⟩
  have wrapped := isCell_wrapInto inside
    (Vec.length_add (length_eq_of_isCell inside) (ranked offset own))
  rw [torus, Boundary.neighborState, single _ wrapped, Grid.get?_eq_some_getD inside 0] at seen
  exact (Option.some.inj seen).symm

/-- If the offsets are too many for a cell, the count of the whole grid is negative where the
count of the single cell is the number of offsets. -/
theorem Engine.Holds.counts_of_crowded {engine : Engine} {program : Program} {grid : Grid Nat}
    (holds : engine.Holds program grid) (torus : program.boundary = .wrap)
    (large : countLimit ≤ program.offsets.length)
    (below : program.offsets.length < 2 * countLimit) {cell : Vec}
    (inside : isCell cell grid.shape) (single : ∀ other, isCell other grid.shape → other = cell)
    {name : String} (known : program.registry.indexOf? name = some (grid.getD cell 0)) :
    ∃ counted counts own, engine.neighborCounts = .ok counted ∧
      counted.lookup name = some counts ∧ counts.shape = grid.shape ∧
      counts.get? cell = some (program.offsets.length - 2 * countLimit : Int) ∧
      engine.cellCounts cell = .ok own ∧
      own.lookup (grid.getD cell 0) = some program.offsets.length := by
  have all := Program.neighbors_eq_replicate torus holds.ranked inside single
  have total : (program.neighbors grid cell).count (grid.getD cell 0) =
      program.offsets.length := by
    rw [all, List.count_replicate_self]
  refine ⟨_, _, _, holds.neighborCounts_eq,
    holds.lookup_neighborCounts holds.neighborCounts_eq known, rfl, ?_,
    holds.cellCounts_eq inside, ?_⟩
  · rw [Grid.get?_ofFn_of_isCell inside, Program.keptCountsAt, total, keptCount_of_le large below]
  · have some : 0 < (program.neighbors grid cell).count (grid.getD cell 0) := by
      rw [total]
      exact Nat.lt_of_lt_of_le (by decide) large
    rw [tally, Program.lookup_map_self _ (mem_sortedSet.mpr (List.count_pos_iff.mp some)), total]

/-! ## A program with more offsets than a cell counts -/

/-- The only cell turns into `B` if it is `A` and all neighbours are `A`. -/
def crowdSource : String :=
  "environment := 3D :: (* = 1) neighborhood := { * within 645 } states := { A :: default B }
   rules := { from A to B := neighborhood(A) == 2151685170 } boundary := wrap"

/-- What is read of the program. -/
def crowdDeclarations : List Declaration :=
  [⟨⟨"environment", some ⟨1, 1⟩⟩, .environment ⟨3, [(⟨"*", some ⟨1, 23⟩⟩, 1)]⟩⟩,
    ⟨⟨"neighborhood", some ⟨1, 30⟩⟩,
      .neighborhood (.custom [⟨⟨"*", some ⟨1, 48⟩⟩, .within, 645⟩])⟩,
    ⟨⟨"states", some ⟨1, 63⟩⟩,
      .states [⟨⟨"A", some ⟨1, 75⟩⟩, [.defaultMark]⟩, ⟨⟨"B", some ⟨1, 88⟩⟩, []⟩]⟩,
    ⟨⟨"rules", some ⟨2, 4⟩⟩,
      .rules [⟨⟨"A", some ⟨2, 20⟩⟩, ⟨"B", some ⟨2, 25⟩⟩,
        .test ⟨.equal, ⟨"A", some ⟨2, 43⟩⟩, 2151685170⟩⟩]⟩,
    ⟨⟨"boundary", some ⟨2, 62⟩⟩, .boundary .wrap⟩]

/-- The parts of the program. -/
def crowdParts : Parts where
  space := ⟨3, [(⟨"*", some ⟨1, 23⟩⟩, 1)]⟩
  shape := .custom [⟨⟨"*", some ⟨1, 48⟩⟩, .within, 645⟩]
  edge := .wrap
  entries := [⟨⟨"A", some ⟨1, 75⟩⟩, [.defaultMark]⟩, ⟨⟨"B", some ⟨1, 88⟩⟩, []⟩]
  rules := [⟨⟨"A", some ⟨2, 20⟩⟩, ⟨"B", some ⟨2, 25⟩⟩,
    .test ⟨.equal, ⟨"A", some ⟨2, 43⟩⟩, 2151685170⟩⟩]

theorem readProgram_crowd : readProgram crowdSource = .ok crowdDeclarations := by
  apply eq_ok_of_toOption
  decide +kernel

theorem ofProgram?_crowd : Parts.ofProgram? crowdDeclarations = some crowdParts := by
  rfl

theorem exists_offsets_crowd : ∃ listed,
    crowdParts.shape.offsets 3 = .ok listed ∧ listed.length = 2151685170 := by
  have positive : 1 ≤ 645 := by decide
  rcases Neighborhood.length_cube (rfl : Name.text ⟨"*", some ⟨1, 48⟩⟩ = everyAxis) 3 positive with
    ⟨listed, known, size⟩
  exact ⟨listed, known, size⟩

/-- What is read makes sense. The bound is the number of all offsets. -/
private theorem acceptable_crowd : Acceptable crowdDeclarations where
  fits := by
    intro declaration member
    simp only [crowdDeclarations, List.mem_cons, List.not_mem_nil, or_false] at member
    rcases member with rfl | rfl | rfl | rfl | rfl
    · exact ⟨.environment, rfl, trivial⟩
    · exact ⟨.neighborhood, rfl, trivial⟩
    · exact ⟨.states, rfl, trivial⟩
    · exact ⟨.rules, rfl, trivial⟩
    · exact ⟨.boundary, rfl, trivial⟩
  required := by decide
  optional := by decide
  parts := by
    have sensible : crowdParts.shape.Sensible 3 :=
      List.forall_mem_singleton.mpr ⟨Or.inl rfl, by decide⟩
    refine ⟨crowdParts, rfl, ?_, sensible, ⟨by decide, by decide, by decide⟩, trivial, ?_⟩
    · exact List.forall_mem_singleton.mpr ⟨Or.inl rfl, by decide⟩
    · intro rule member
      obtain rfl := List.mem_singleton.mp member
      refine ⟨by decide, by decide, ?_, ?_⟩
      · rintro nodes ⟨⟩
        decide
      · intro test member
        obtain rfl := List.mem_singleton.mp member
        rcases exists_offsets_crowd with ⟨listed, known, size⟩
        rcases Neighborhood.exists_offsets sensible with ⟨own, known', described⟩
        obtain rfl := Except.ok.inj (known.symm.trans known')
        have number := Neighborhood.ncard_describes known described
        have most : (2151685170 : Int) ≤ Set.ncard {v | crowdParts.shape.Describes 3 v} := by
          rw [number, size]
          exact Int.le_refl _
        exact ⟨by decide, by decide, most⟩

theorem startable_crowd : crowdParts.Startable none none [1, 1, 1] := by
  have sensible : crowdParts.space.Sensible :=
    List.forall_mem_singleton.mpr ⟨Or.inl rfl, by decide⟩
  constructor
  · rw [Parts.spans_none_iff sensible]
    decide +kernel
  · exact Or.inl rfl
  · exact fun _ given => absurd given (Option.not_mem_none _)
  · exact fun _ given => absurd given (Option.not_mem_none _)
  · exact fun missing => absurd missing nofun

/-- The program with its first grid, whose only cell is an `A`. -/
structure Crowd (program : Program) (grid : Grid Nat) : Prop where
  loaded : load crowdSource = .ok program
  origin : ∃ validated, Loaded crowdSource program crowdDeclarations crowdParts validated
  torus : program.boundary = .wrap
  size : program.offsets.length = 2151685170
  shape : grid.shape = [1, 1, 1]
  state : program.registry.indexOf? "A" = some (grid.getD [0, 0, 0] 0)
  started : Engine.start { program } none none =
    .ok ⟨program, some ⟨grid, Grid.fill grid.shape 0⟩, 0⟩

theorem exists_crowd : ∃ program grid, Crowd program grid := by
  rcases validate_cases (readable_of_readProgram readProgram_crowd) with
    ⟨_, validated, accepted⟩ | ⟨unacceptable, _⟩
  case inr => exact absurd acceptable_crowd unacceptable
  have loaded : load crowdSource = .ok validated.compile :=
    load_eq_ok_iff.mpr ⟨_, _, readProgram_crowd, accepted, rfl⟩
  rcases loaded_of_load loaded with ⟨_, _, validated', origin⟩
  obtain rfl := Except.ok.inj (readProgram_crowd.symm.trans origin.read)
  obtain rfl := Option.some.inj (ofProgram?_crowd.symm.trans origin.divided)
  rcases origin.accepted.exists_initialGrid_iff.mpr startable_crowd with ⟨grid, first, shape⟩
  rw [← origin.compiled] at first
  have inside : isCell [0, 0, 0] grid.shape := by
    rw [shape]
    decide
  rcases (Program.initialGrid_eq_ok first).2 _ inside with ⟨declared, named⟩
  refine ⟨validated.compile, grid, loaded, ⟨_, origin⟩, ?_, ?_, shape, ?_,
    Engine.start_eq_ok_iff.mpr ⟨grid, first, rfl⟩⟩
  · rw [origin.compiled]
    exact (Option.some.inj (Prod.mk.inj (origin.accepted.boundary ⟨"", none⟩)).2).symm
  · rcases exists_offsets_crowd with ⟨listed, known, size⟩
    obtain rfl := Except.ok.inj (known.symm.trans origin.offsets_eq)
    exact size
  · have default : validated.compile.initialName none [0, 0, 0] = some "A" := by
      rw [Program.initialName, origin.registry_eq]
      exact origin.accepted.default?_eq
    obtain name := Option.some.inj (default.symm.trans named)
    rw [name]
    exact Registry.indexOf?_nameOf origin.distinct declared

namespace Crowd

variable {program : Program} {grid : Grid Nat} (crowd : Crowd program grid)

include crowd

theorem inside : isCell [0, 0, 0] grid.shape := by
  rw [crowd.shape]
  decide

theorem single (cell : Vec) (inside : isCell cell grid.shape) : cell = [0, 0, 0] := by
  rw [crowd.shape] at inside
  exact List.mem_singleton.mp (mem_coordinates.mpr inside : cell ∈ coordinates [1, 1, 1])

theorem reachable : Reachable program ⟨program, some ⟨grid, Grid.fill grid.shape 0⟩, 0⟩ :=
  .started .fresh crowd.started

theorem holds :
    Engine.Holds ⟨program, some ⟨grid, Grid.fill grid.shape 0⟩, 0⟩ program grid :=
  crowd.reachable.holds crowd.loaded rfl

theorem count_eq :
    (program.neighbors grid [0, 0, 0]).count (grid.getD [0, 0, 0] 0) = 2151685170 := by
  rw [Program.neighbors_eq_replicate crowd.torus crowd.holds.ranked crowd.inside crowd.single,
    List.count_replicate_self, crowd.size]

theorem large : countLimit ≤ program.offsets.length := by
  rw [crowd.size]
  decide

theorem below : program.offsets.length < 2 * countLimit := by
  rw [crowd.size]
  decide

/-- The only rule applies if the count of the state is the number of all neighbours. -/
theorem nameOf_follower (counts : Nat → Int) :
    program.registry.nameOf (program.follower counts (grid.getD [0, 0, 0] 0)) =
      if counts (grid.getD [0, 0, 0] 0) = 2151685170 then "B" else "A" := by
  rcases crowd.origin with ⟨_, origin⟩
  let named (name : String) : Int := counts ((program.registry.indexOf? name).getD 0)
  have same : ∀ name i, program.registry.indexOf? name = some i → counts i = named name := by
    intro name i known
    simp only [named, known, Option.getD_some]
  have own : named "A" = counts (grid.getD [0, 0, 0] 0) := (same _ _ crowd.state).symm
  rw [origin.nameOf_follower_eq same (Registry.indexOf?_lt crowd.state),
    Registry.nameOf_of_indexOf? crowd.state, ← own]
  simp only [crowdParts, nameAfter, Rule.Applies, Condition.Holds, CountTest.Holds,
    Comparison.Relates, true_and]

/-- The counts that the declarations speak of make the cell a `B`. -/
theorem foretold : program.registry.nameOf
    (program.follower (program.countsAt grid [0, 0, 0]) (grid.getD [0, 0, 0] 0)) = "B" := by
  rw [crowd.nameOf_follower, Program.countsAt, crowd.count_eq]
  exact if_pos rfl

/-- The counts that a step goes on from leave it an `A`. -/
theorem stepped :
    program.registry.nameOf ((program.successor grid).getD [0, 0, 0] 0) = "A" := by
  rw [Program.getD_successor _ crowd.inside, crowd.nameOf_follower, Program.keptCountsAt,
    crowd.count_eq]
  exact if_neg (by decide)

end Crowd

/-- With too many neighbours, a step does not make of a cell what was foretold for it. -/
theorem step_ne_nextState_crowd : ∃ program engine next picture,
    load crowdSource = .ok program ∧ Reachable program engine ∧
    engine.nextState [0, 0, 0] = .ok "B" ∧ engine.step = .ok next ∧
    next.snapshot = .ok picture ∧ picture.get [0, 0, 0] = .ok "A" := by
  rcases exists_crowd with ⟨program, grid, crowd⟩
  rcases crowd.origin with ⟨_, origin⟩
  have sound := crowd.reachable.sound origin.sound
  refine ⟨program, _, _, _, crowd.loaded, crowd.reachable, ?_, sound.step_eq rfl, rfl, ?_⟩
  · rw [sound.nextState_eq rfl crowd.inside]
    exact congrArg Except.ok crowd.foretold
  · have inside : isCell [0, 0, 0] (program.successor grid).shape := crowd.inside
    exact Snapshot.get_eq_ok_of_isCell inside crowd.stepped

/-- So a history does not always show the generations that the declarations describe. -/
theorem simulate_ne_generations_crowd : ∃ program engine history picture,
    load crowdSource = .ok program ∧ Engine.start { program } none none = .ok engine ∧
    Parts.ofProgram? crowdDeclarations = some crowdParts ∧
    simulate crowdSource 1 none none = .ok history ∧ history[1]? = some picture ∧
    crowdParts.generation [1, 1, 1] none 1 [0, 0, 0] = "B" ∧
    picture.get [0, 0, 0] = .ok "A" := by
  rcases exists_crowd with ⟨program, grid, crowd⟩
  rcases crowd.origin with ⟨_, origin⟩
  have on : Engine.IsOn ⟨program, some ⟨grid, Grid.fill grid.shape 0⟩, 0⟩ program grid :=
    ⟨rfl, Grid.fill grid.shape 0, rfl, rfl⟩
  have ranked : grid.shape.length = program.rank :=
    ((crowd.reachable.sound origin.sound).buffers _ rfl).ranked
  rcases on.exists_history origin.sound ranked 1 with ⟨history, done, length, shown⟩
  rcases List.getElem?_eq_some_iff.mpr ⟨(by omega : 1 < history.length), rfl⟩ with found
  refine ⟨program, _, history, _, crowd.loaded, crowd.started, ofProgram?_crowd, ?_, found, ?_, ?_⟩
  · rw [simulate, crowd.loaded]
    simp only [bind, Except.bind, Except.mapError, crowd.started]
    exact congrArg (Except.mapError _) done
  · have shows : grid.Shows program.registry (crowdParts.generation grid.shape none 0) := by
      constructor
      · intro cell inside
        rw [crowd.single cell inside]
        exact Registry.indexOf?_lt crowd.state
      · intro cell inside
        rw [crowd.single cell inside]
        exact Registry.nameOf_of_indexOf? crowd.state
    rw [← crowd.foretold, origin.nameOf_follower shows ranked crowd.inside, crowd.shape]
    rfl
  · rw [shown 1 _ found]
    have inside : isCell [0, 0, 0] (program.successor grid).shape := crowd.inside
    exact Snapshot.get_eq_ok_of_isCell inside crowd.stepped

/-- Too many neighbours are counted as less than none. -/
theorem counts_disagree_crowd : ∃ program engine counted counts own state,
    load crowdSource = .ok program ∧ Reachable program engine ∧
    program.registry.indexOf? "A" = some state ∧ engine.neighborCounts = .ok counted ∧
    counted.lookup "A" = some counts ∧ counts.get? [0, 0, 0] = some (-2143282126) ∧
    engine.cellCounts [0, 0, 0] = .ok own ∧ own.lookup state = some 2151685170 := by
  rcases exists_crowd with ⟨program, grid, crowd⟩
  rcases crowd.holds.counts_of_crowded crowd.torus crowd.large crowd.below crowd.inside
    crowd.single crowd.state with ⟨counted, counts, own, done, found, _, shown, asked, listed⟩
  rw [crowd.size] at shown listed
  exact ⟨program, _, counted, counts, own, _, crowd.loaded, crowd.reachable, crowd.state, done,
    found, shown, asked, listed⟩

/-- Added up over all cells, the counts are not as many as there are offsets for each cell in
the state. -/
theorem sum_ne_crowd : ∃ program engine picture counted counts number,
    load crowdSource = .ok program ∧ Reachable program engine ∧
    engine.snapshot = .ok picture ∧ program.boundary = .wrap ∧
    engine.neighborCounts = .ok counted ∧ counted.lookup "A" = some counts ∧
    picture.count "A" = .ok number ∧
    counts.cells.toList.sum ≠ (program.offsets.length * number : Nat) := by
  rcases exists_crowd with ⟨program, grid, crowd⟩
  rcases crowd.holds.counts_of_crowded crowd.torus crowd.large crowd.below crowd.inside
    crowd.single crowd.state with ⟨counted, counts, _, done, found, same, shown, _, _⟩
  rw [crowd.size] at shown
  refine ⟨program, _, _, counted, counts, _, crowd.loaded, crowd.reachable,
    Engine.snapshot_eq rfl, crowd.torus, done, found, Snapshot.count_eq crowd.state, ?_⟩
  have listed : counts.cells.toList = [-2143282126] := by
    rw [← Grid.ofFn_getD counts 0, same, crowd.shape]
    exact congrArg (List.cons · []) (congrArg (Option.getD · 0) shown)
  rw [listed]
  intro equal
  exact absurd equal (by rw [List.sum_singleton]; omega)

end Cellular
