import Cellular.Proofs.Engine.Evolution
import Cellular.Proofs.Space.Symmetric
import Cellular.Proofs.Validation.Acceptance

/-!
# Moved grids evolve alike

If the neighbours of a moved cell are the moved neighbours of the cell, it does not matter
whether a grid is moved before a step or after it, and so before a run or after it. A torus
may be shifted by any vector, with any neighbourhood. A reflection along an axis and a
permutation of the axes need a neighbourhood that is closed under them, but leave the
boundary open.
-/

namespace Cellular

namespace Program

variable (program : Program)

/-- Turning leads from offsets of the program to offsets of the program. -/
def ClosedUnder (turn : Vec → Vec) : Prop :=
  ∀ offset ∈ program.offsets, turn offset ∈ program.offsets

/-! ## One step -/

/-- A step of a moved grid is the moved step of the grid, if every moved cell sees at the
turned offsets, which are the offsets again, what the cell sees. -/
theorem successor_moved {move turn : Vec → Vec} {grid moved : Grid Nat}
    (took : grid.Moved move moved) (reordered : (program.offsets.map turn).Perm program.offsets)
    (sees : ∀ cell, isCell cell grid.shape → ∀ offset ∈ program.offsets,
      program.boundary.neighborState moved (move cell) (turn offset) =
        program.boundary.neighborState grid cell offset) :
    (program.successor grid).Moved move (program.successor moved) := by
  constructor
  · exact took.onto
  · intro cell inside
    apply program.get?_successor_eq (took.get? cell inside)
    have turned : (program.offsets.map turn).filterMap
        (program.boundary.neighborState moved (move cell)) = program.neighbors grid cell := by
      rw [List.filterMap_map, neighbors]
      exact List.filterMap_congr (sees cell inside)
    rw [← turned]
    exact (reordered.filterMap _).symm

variable {program} {grid : Grid Nat}

/-- A torus may be shifted before a step or after it. -/
theorem successor_translate (torus : program.boundary = .wrap)
    (ranked : ∀ offset ∈ program.offsets, offset.length = grid.shape.length) {shift : Vec}
    (shifted : shift.length = grid.shape.length) :
    program.successor (grid.translate shift) = (program.successor grid).translate shift := by
  have reordered : (program.offsets.map id).Perm program.offsets := by rw [List.map_id]
  have sees : ∀ cell, isCell cell grid.shape → ∀ offset ∈ program.offsets,
      program.boundary.neighborState (grid.translate shift)
          (wrapInto (Vec.add cell shift) grid.shape) (id offset) =
        program.boundary.neighborState grid cell offset := by
    intro cell inside offset member
    rw [torus]
    exact Boundary.neighborState_translate grid inside shifted (ranked offset member)
  have moved := program.successor_moved (grid.moved_translate shifted) reordered sees
  exact moved.unique ((program.successor grid).moved_translate shifted) rfl

/-- Any grid may be reflected before a step or after it, if the neighbourhood looks both
ways along the axis. -/
theorem successor_reflect (distinct : program.offsets.Nodup)
    (ranked : ∀ offset ∈ program.offsets, offset.length = grid.shape.length) {axis : Nat}
    (closed : program.ClosedUnder (Vec.flip axis)) :
    program.successor (grid.reflect axis) = (program.successor grid).reflect axis := by
  have motion : Motion grid.shape (grid.reflect axis).shape _ _ := motion_mirror grid.shape axis
  have took := grid.moved_reflect axis
  have reordered := perm_map_of_closed distinct closed fun offset _ => Vec.flip_flip axis offset
  have moved := program.successor_moved took reordered fun cell inside offset member =>
    motion.neighborState_moved took program.boundary inside (ranked offset member)
  exact moved.unique ((program.successor grid).moved_reflect axis) rfl

/-- The axes of any grid may be permuted before a step or after it, if the neighbourhood
treats them alike. -/
theorem successor_transpose {rank : Nat} (distinct : program.offsets.Nodup)
    (ranked : ∀ offset ∈ program.offsets, offset.length = rank)
    (length : grid.shape.length = rank) {axes : Equiv.Perm (Fin rank)}
    (closed : program.ClosedUnder (Vec.permute axes)) :
    program.successor (grid.transpose axes) = (program.successor grid).transpose axes := by
  have motion : Motion grid.shape (grid.transpose axes).shape _ _ := motion_permute axes length
  have took := Grid.moved_transpose axes length
  have took' : (program.successor grid).Moved _ ((program.successor grid).transpose axes) :=
    Grid.moved_transpose axes length
  have reordered := perm_map_of_closed distinct closed fun offset member =>
    Vec.permute_symm_permute axes (ranked offset member)
  have moved := program.successor_moved took reordered fun cell inside offset member =>
    motion.neighborState_moved took program.boundary inside
      ((ranked offset member).trans length.symm)
  exact moved.unique took' rfl

end Program

/-! ## Runs -/

/-- What may be done to a grid before a step or after it may be done before a run or after
it. -/
theorem Engine.IsOn.commutes {program : Program} (sound : program.Sound)
    (change : Grid Nat → Grid Nat)
    (keeps : ∀ grid : Grid Nat, grid.shape.length = program.rank →
      (change grid).shape.length = program.rank)
    (step : ∀ grid : Grid Nat, grid.shape.length = program.rank →
      program.successor (change grid) = change (program.successor grid))
    {grid : Grid Nat} (ranked : grid.shape.length = program.rank) {engine other : Engine}
    (on : engine.IsOn program grid) (on' : other.IsOn program (change grid)) (n : Nat) :
    ∃ last, engine.Arrives n last ∧ other.Arrives n (change last) := by
  have iterated : program.successor^[n] (change grid) = change (program.successor^[n] grid) := by
    clear on on'
    induction n generalizing grid with
    | zero => rfl
    | succ n ih =>
        rw [Function.iterate_succ_apply, Function.iterate_succ_apply, step grid ranked]
        exact ih ranked
  refine ⟨_, on.arrives sound ranked n, ?_⟩
  rw [← iterated]
  exact on'.arrives sound (keeps grid ranked) n

/-- A loaded program on a torus runs on a shifted grid as on the grid itself: shifting first
and then running leads to the same grid as running first and then shifting. -/
theorem steps_translate {source : String} {program : Program} (loaded : load source = .ok program)
    (torus : program.boundary = .wrap) {grid : Grid Nat}
    (ranked : grid.shape.length = program.rank) {shift : Vec}
    (shifted : shift.length = program.rank) {engine other : Engine}
    (on : engine.IsOn program grid) (on' : other.IsOn program (grid.translate shift)) (k : Nat) :
    ∃ last, engine.Arrives k last ∧ other.Arrives k (last.translate shift) := by
  rcases loaded_of_load loaded with ⟨_, _, _, origin⟩
  refine on.commutes origin.sound (·.translate shift) (fun _ ranked => ranked) ?_ ranked on' k
  intro grid ranked
  exact Program.successor_translate torus
    (fun offset member => (origin.sound.ranked offset member).trans ranked.symm)
    (shifted.trans ranked.symm)

/-- Two cells in different states, shifted back by more than the whole torus. -/
theorem steps_translate_ring : ∃ (program : Program) (engine other : Engine) (grid : Grid Nat),
    load ringSource = .ok program ∧
    engine.IsOn program grid ∧ other.IsOn program (grid.translate [-3]) ∧
      ∃ last, engine.Arrives 2 last ∧ other.Arrives 2 (last.translate [-3]) := by
  rcases load_ring with ⟨program, _, loaded, ⟨rank, torus, _⟩, _⟩
  let grid : Grid Nat := ⟨[2], #[0, 1], rfl⟩
  let engine (grid : Grid Nat) : Engine := { program, buffers := some ⟨grid, grid⟩ }
  have on (grid : Grid Nat) : (engine grid).IsOn program grid := ⟨rfl, grid, rfl, rfl⟩
  have ranked : grid.shape.length = program.rank := rank.symm
  have shifted : ([-3] : Vec).length = program.rank := rank.symm
  exact ⟨program, engine grid, engine (grid.translate [-3]), grid, loaded, on _, on _,
    steps_translate loaded torus ranked shifted (on _) (on _) 2⟩

/-! ## Mirrors and axes -/

namespace Loaded

variable {source : String} {program : Program} {declarations : List Declaration} {parts : Parts}
  {validated : Validated}

theorem closedUnder_flip (loaded : Loaded source program declarations parts validated)
    (twoSided : parts.shape.TwoSided) (axis : Nat) : program.ClosedUnder (Vec.flip axis) := by
  intro offset member
  rw [loaded.compiled] at member ⊢
  have described := loaded.accepted.mem_offsets_iff.mp member
  exact loaded.accepted.mem_offsets_iff.mpr (described.flip twoSided axis)

theorem closedUnder_permute (loaded : Loaded source program declarations parts validated)
    (alike : parts.shape = .moore ∨ parts.shape = .vonNeumann)
    (axes : Equiv.Perm (Fin program.rank)) : program.ClosedUnder (Vec.permute axes) := by
  obtain rfl := loaded.compiled
  intro offset member
  have described := loaded.accepted.mem_offsets_iff.mp member
  exact loaded.accepted.mem_offsets_iff.mpr (described.permute alike axes)

theorem nodup_offsets (loaded : Loaded source program declarations parts validated) :
    program.offsets.Nodup := by
  rw [loaded.compiled]
  exact Neighborhood.nodup_offsets loaded.accepted.offsets

end Loaded

/-- A loaded program whose neighbourhood is closed under flipping an axis runs on a reflected
grid as on the grid itself, and likewise with a permutation of the axes. The neighbourhoods
that are to be closed are. -/
theorem steps_symmetric {source : String} {program : Program}
    (loaded : load source = .ok program) :
    (∃ declarations parts,
      readProgram source = .ok declarations ∧ Parts.ofProgram? declarations = some parts ∧
      (parts.shape.TwoSided → ∀ axis, program.ClosedUnder (Vec.flip axis)) ∧
      (parts.shape = .moore ∨ parts.shape = .vonNeumann →
        ∀ axes : Equiv.Perm (Fin program.rank), program.ClosedUnder (Vec.permute axes))) ∧
    ∀ grid : Grid Nat, grid.shape.length = program.rank →
      (∀ axis, program.ClosedUnder (Vec.flip axis) → ∀ engine other : Engine,
        engine.IsOn program grid → other.IsOn program (grid.reflect axis) → ∀ k,
          ∃ last, engine.Arrives k last ∧ other.Arrives k (last.reflect axis)) ∧
      (∀ axes : Equiv.Perm (Fin program.rank), program.ClosedUnder (Vec.permute axes) →
        ∀ engine other : Engine,
          engine.IsOn program grid → other.IsOn program (grid.transpose axes) → ∀ k,
            ∃ last, engine.Arrives k last ∧ other.Arrives k (last.transpose axes)) := by
  rcases loaded_of_load loaded with ⟨declarations, parts, validated, origin⟩
  have sound := origin.sound
  refine ⟨⟨declarations, parts, origin.read, origin.divided, origin.closedUnder_flip,
    origin.closedUnder_permute⟩, ?_⟩
  intro grid ranked
  constructor
  · intro axis closed engine other on on' k
    refine on.commutes sound (·.reflect axis) (fun _ ranked => ranked) ?_ ranked on' k
    intro grid ranked
    exact Program.successor_reflect origin.nodup_offsets
      (fun offset member => (sound.ranked offset member).trans ranked.symm) closed
  · intro axes closed engine other on on' k
    refine on.commutes sound (·.transpose axes) (fun _ _ => List.length_ofFn) ?_ ranked on' k
    intro grid ranked
    exact Program.successor_transpose origin.nodup_offsets sound.ranked ranked closed

/-- A cell with no `B` around it turns into `B`. -/
def lonelySource : String :=
  "environment := 2D neighborhood := MOORE states := { A B }
   rules := { from A to B := neighborhood(B) == 0 }"

/-- What is read of the program. -/
def lonelyDeclarations : List Declaration :=
  [⟨⟨"environment", some ⟨1, 1⟩⟩, .environment ⟨2, []⟩⟩,
    ⟨⟨"neighborhood", some ⟨1, 19⟩⟩, .neighborhood .moore⟩,
    ⟨⟨"states", some ⟨1, 41⟩⟩,
      .states [⟨⟨"A", some ⟨1, 53⟩⟩, []⟩, ⟨⟨"B", some ⟨1, 55⟩⟩, []⟩]⟩,
    ⟨⟨"rules", some ⟨2, 4⟩⟩,
      .rules [⟨⟨"A", some ⟨2, 20⟩⟩, ⟨"B", some ⟨2, 25⟩⟩,
        .test ⟨.equal, ⟨"B", some ⟨2, 43⟩⟩, 0⟩⟩]⟩]

theorem readProgram_lonely : readProgram lonelySource = .ok lonelyDeclarations := by
  apply eq_ok_of_toOption
  decide +kernel

/-- What is read makes sense. Its only bound is zero, which no count is below. -/
private theorem acceptable_lonely : Acceptable lonelyDeclarations where
  fits := by
    intro declaration member
    simp only [lonelyDeclarations, List.mem_cons, List.not_mem_nil, or_false] at member
    rcases member with rfl | rfl | rfl | rfl
    · exact ⟨.environment, rfl, trivial⟩
    · exact ⟨.neighborhood, rfl, trivial⟩
    · exact ⟨.states, rfl, trivial⟩
    · exact ⟨.rules, rfl, trivial⟩
  required := by decide
  optional := by decide
  parts := by
    refine ⟨_, rfl, nofun, trivial, ⟨by decide, by decide, by decide⟩, trivial, ?_⟩
    intro rule member
    obtain rfl := List.mem_singleton.mp member
    refine ⟨by decide, by decide, ?_, ?_⟩
    · rintro nodes ⟨⟩
      decide
    · intro test member
      obtain rfl := List.mem_singleton.mp member
      exact ⟨by decide, Int.le_refl 0, Int.natCast_nonneg _⟩

theorem load_lonely : ∃ program, load lonelySource = .ok program ∧ program.rank = 2 := by
  rcases validate_cases (readable_of_readProgram readProgram_lonely) with
    ⟨_, validated, accepted⟩ | ⟨unacceptable, _⟩
  · rcases accepted_of_validate accepted with ⟨parts, divided, passes⟩
    obtain rfl := Option.some.inj divided
    refine ⟨validated.compile, ?_, passes.rank⟩
    rw [load, readValidated, readProgram_lonely]
    simp only [bind, Except.bind, Except.mapError, accepted]
    rfl
  · exact absurd acceptable_lonely unacceptable

/-- A row of three cells, seen in a mirror, and turned into a column. -/
theorem steps_symmetric_lonely : ∃ (program : Program) (engine mirrored turned : Engine)
    (grid : Grid Nat), load lonelySource = .ok program ∧ grid.shape = [1, 3] ∧
      engine.IsOn program grid ∧ mirrored.IsOn program (grid.reflect 1) ∧
      turned.IsOn program (grid.transpose (Fin.revPerm : Equiv.Perm (Fin program.rank))) ∧
      (∃ last, engine.Arrives 2 last ∧ mirrored.Arrives 2 (last.reflect 1)) ∧
      ∃ last, engine.Arrives 2 last ∧
        turned.Arrives 2 (last.transpose (Fin.revPerm : Equiv.Perm (Fin program.rank))) := by
  rcases load_lonely with ⟨program, loaded, rank⟩
  let grid : Grid Nat := ⟨[1, 3], #[0, 1, 0], rfl⟩
  let engine (grid : Grid Nat) : Engine := { program, buffers := some ⟨grid, grid⟩ }
  have on (grid : Grid Nat) : (engine grid).IsOn program grid := ⟨rfl, grid, rfl, rfl⟩
  obtain ⟨⟨declarations, parts, read, divided, flips, permutes⟩, moves⟩ := steps_symmetric loaded
  obtain rfl := Except.ok.inj (readProgram_lonely.symm.trans read)
  obtain rfl := Option.some.inj divided
  rcases moves grid rank.symm with ⟨reflects, transposes⟩
  exact ⟨program, engine grid, engine _, engine _, grid, loaded, rfl, on _, on _, on _,
    reflects 1 (flips trivial 1) _ _ (on _) (on _) 2,
    transposes _ (permutes (Or.inl rfl) _) _ _ (on _) (on _) 2⟩

end Cellular
