import Cellular.Proofs.Engine.InPlace
import Cellular.Proofs.Program.Renamed

/-!
# Steps under other numbers

Two programs that differ by the names and numbers of their states only visit the states of a
grid in different orders, and write other numbers into one scratch grid. Still, on grids that
differ by these numbers, a cell has the same neighbours, every condition has the same mask,
and the clauses of a state claim the same cells for the same states. So both programs take
a step, to grids that differ by the numbers again, or neither does.
-/

namespace Cellular

/-! ## Around a cell -/

theorem Boundary.neighborState_map {σ τ : Type} (f : σ → τ) (boundary : Boundary σ)
    (grid : Grid σ) (cell offset : Vec) :
    (boundary.map f).neighborState (grid.map f) cell offset =
      (boundary.neighborState grid cell offset).map f := by
  cases boundary with
  | void | wrap => exact Grid.get?_map ..
  | static state =>
      rw [map, neighborState, neighborState, Option.map_some, Grid.getD, Grid.get?_map,
        Option.getD_map]
      rfl

/-- A grid whose cells hold states of a program. -/
def Grid.Declared (grid : Grid Nat) (program : Program) : Prop :=
  ∀ cell, isCell cell grid.shape → grid.getD cell 0 < program.registry.states.length

namespace Program

theorem Closed.lt_of_mem_neighbors {program : Program} (closed : program.Closed)
    {grid : Grid Nat} (declared : grid.Declared program) {cell : Vec} {state : Nat}
    (member : state ∈ program.neighbors grid cell) :
    state < program.registry.states.length := by
  have get?_lt : ∀ {cell state}, grid.get? cell = some state →
      state < program.registry.states.length := by
    intro cell state found
    have inside : isCell cell grid.shape := by
      rw [← Grid.isSome_get?, found]
      rfl
    have below := declared cell inside
    rwa [Grid.getD, found] at below
  rcases List.mem_filterMap.mp member with ⟨offset, _, found⟩
  cases edge : program.boundary with
  | void | wrap =>
      rw [edge] at found
      exact get?_lt found
  | static beyond =>
      rw [edge, Boundary.neighborState, Grid.getD, Option.some_inj] at found
      cases seen : grid.get? (Vec.add cell offset) with
      | none =>
          rw [seen] at found
          subst found
          exact closed.frame_lt _ (by rw [edge]; rfl)
      | some shown =>
          rw [seen] at found
          subst found
          exact get?_lt seen

theorem Closed.lt_of_claimed {program : Program} (closed : program.Closed) {grid : Grid Nat}
    {state : Nat} {targets : Vec → Option Nat}
    (done : program.claimed grid state = .ok targets) {cell : Vec} {target : Nat}
    (claims : targets cell = some target) : target < program.registry.states.length := by
  rcases exists_of_claims done claims with ⟨clause, member, rfl⟩
  cases found : program.clauses[state]? with
  | none =>
      rw [found] at member
      exact absurd member List.not_mem_nil
  | some clauses =>
      rw [found] at member
      exact closed.target_lt clauses (List.mem_of_getElem? found) clause member

/-- A step leads from states of a program to states of the program. -/
theorem Closed.declared_nextGrid {program : Program} (closed : program.Closed)
    {grid scratch next : Grid Nat} (declared : grid.Declared program)
    (same : scratch.shape = grid.shape) (stepped : program.nextGrid ⟨grid, scratch⟩ = .ok next) :
    next.shape = grid.shape ∧ next.Declared program := by
  rcases exists_of_nextGrid same stepped with ⟨targets, done, rfl⟩
  constructor
  · rfl
  · intro cell inside
    have within : isCell cell grid.shape := inside
    dsimp only
    rw [getD_patch within]
    cases found : targets (grid.getD cell 0) cell with
    | none => exact declared cell within
    | some target => exact closed.lt_of_claimed (done _) found

namespace Renamed

variable {rename : String → String} {first second : Program}
  (renamed : first.Renamed rename second) {grid : Grid Nat}

include renamed

theorem neighbors_eq (grid : Grid Nat) (cell : Vec) :
    second.neighbors (grid.map (first.registry.renumber rename second.registry)) cell =
      (first.neighbors grid cell).map (first.registry.renumber rename second.registry) := by
  rw [neighbors, neighbors, renamed.offsets, renamed.boundary, List.map_filterMap]
  apply List.filterMap_congr
  intro offset _
  exact Boundary.neighborState_map ..

/-- Around a cell as many neighbours hold a state as hold it under its other number. -/
theorem countsAt_eq (declared : grid.Declared first) (cell : Vec) {state : Nat}
    (known : state < first.registry.states.length) :
    second.countsAt (grid.map (first.registry.renumber rename second.registry)) cell
        (first.registry.renumber rename second.registry state) =
      first.countsAt grid cell state := by
  rw [countsAt, countsAt, renamed.neighbors_eq, List.count, List.count, List.countP_map]
  apply congrArg Nat.cast
  apply List.countP_congr
  intro neighbor member
  have below := renamed.closed.lt_of_mem_neighbors declared member
  simp only [Function.comp_apply, beq_iff_eq]
  exact renamed.registry.renumber_inj below known

/-! ## One step -/

/-- A clause has the same mask under other numbers. -/
theorem mask_eq (declared : grid.Declared first) (ranked : grid.shape.length = first.rank)
    {clauses : List Clause} (row : clauses ∈ first.clauses) {clause : Clause}
    (member : clause ∈ clauses) (shape : List Nat) :
    (clause.map (first.registry.renumber rename second.registry)).condition.mask
        ((second.countGrids (grid.map (first.registry.renumber rename second.registry))
          second.census).lookup ·) shape =
      clause.condition.mask ((first.countGrids grid first.census).lookup ·) shape := by
  have offsets : ∀ offset ∈ first.offsets, offset.length = grid.shape.length :=
    fun offset inOffsets => (renamed.closed.ranked offset inOffsets).trans ranked.symm
  apply Condition.maskBy_map
  intro test occurs
  have counted : test.state ∈ first.census :=
    Program.mem_census_iff.mpr ⟨clauses, row, clause, member, test, occurs, rfl⟩
  have found := first.lookup_countGrids grid offsets counted
  have found' := second.lookup_countGrids
    (grid.map (first.registry.renumber rename second.registry))
    (renamed.offsets ▸ offsets) (renamed.mem_census_iff.mpr ⟨test.state, counted, rfl⟩)
  have known := renamed.closed.test_lt clauses row clause member test occurs
  rw [CountTest.mask, CountTest.mask]
  simp only [CountTest.map, found, found',
    keptCountsAt_congr (renamed.countsAt_eq declared _ known)]
  rfl

end Renamed

theorem claims_map {f : Nat → Nat} {counts counts' : Nat → Option (Grid Int)}
    {clauses : List Clause} {cells : Grid Bool}
    (masks : ∀ clause ∈ clauses, (clause.map f).condition.mask counts' cells.shape =
      clause.condition.mask counts cells.shape) :
    claims counts' cells (clauses.map (Clause.map f)) =
      (claims counts cells clauses).map fun targets cell => (targets cell).map f := by
  induction clauses generalizing cells with
  | nil => rfl
  | cons clause rest ih =>
      rcases List.forall_mem_cons.mp masks with ⟨own, others⟩
      rw [List.map_cons, claims, claims, own]
      split
      · rfl
      · cases clause.condition.mask counts cells.shape with
        | error fault => rfl
        | ok mask =>
            have later := @ih (remaining cells mask) others
            simp only [bind, Except.bind, later]
            cases claims counts (remaining cells mask) rest with
            | error fault => rfl
            | ok targets =>
                apply congrArg Except.ok
                funext cell
                dsimp only
                split
                · rfl
                · rfl

private theorem patch_map {f : Nat → Nat} {grid : Grid Nat}
    {targets targets' : Nat → Vec → Option Nat}
    (same : ∀ cell, isCell cell grid.shape →
      targets' (f (grid.getD cell 0)) cell = (targets (grid.getD cell 0) cell).map f) :
    patch (grid.map f) (fun cell => targets' ((grid.map f).getD cell 0) cell) =
      (patch grid fun cell => targets (grid.getD cell 0) cell).map f := by
  rw [patch, patch, Grid.map_ofFn]
  apply Grid.ofFn_congr
  intro cell inside
  have within : isCell cell grid.shape := inside
  rw [Grid.getD_map within _ 0, same cell within, Option.getD_map]

namespace Renamed

variable {rename : String → String} {first second : Program}
  (renamed : first.Renamed rename second) {grid : Grid Nat}

include renamed

/-- The clauses of a state claim the same cells for the same states. -/
theorem claimed_eq (declared : grid.Declared first) (ranked : grid.shape.length = first.rank)
    {state : Nat} (known : state < first.registry.states.length) :
    second.claimed (grid.map (first.registry.renumber rename second.registry))
        (first.registry.renumber rename second.registry state) =
      (first.claimed grid state).map fun targets cell =>
        (targets cell).map (first.registry.renumber rename second.registry) := by
  have cells : (grid.map (first.registry.renumber rename second.registry)).map
      (· == first.registry.renumber rename second.registry state) = grid.map (· == state) := by
    rw [Grid.map_map]
    apply Grid.map_congr
    intro cell inside
    rw [Bool.eq_iff_iff, beq_iff_eq, beq_iff_eq]
    exact renamed.registry.renumber_inj (declared cell inside) known
  rw [claimed, claimed, renamed.clauses state known, cells]
  cases found : first.clauses[state]? with
  | none => rfl
  | some clauses =>
      apply claims_map
      intro clause member
      exact renamed.mask_eq declared ranked (List.mem_of_getElem? found) member _

private theorem exists_claimed_iff (declared : grid.Declared first)
    (ranked : grid.shape.length = first.rank) :
    (∀ state, ∃ targets, first.claimed grid state = .ok targets) ↔
      ∀ number, ∃ targets, second.claimed
        (grid.map (first.registry.renumber rename second.registry)) number = .ok targets := by
  constructor
  · intro each number
    by_cases known : number < second.registry.states.length
    · rcases renamed.registry.exists_renumber_eq known with ⟨state, below, rfl⟩
      rcases each state with ⟨targets, done⟩
      rw [renamed.claimed_eq declared ranked below, done]
      exact ⟨_, rfl⟩
    · rw [← renamed.covers] at known
      exact ⟨_, claimed_of_none (List.getElem?_eq_none (Nat.le_of_not_lt known))⟩
  · intro each state
    by_cases known : state < first.registry.states.length
    · rcases each (first.registry.renumber rename second.registry state) with ⟨targets, done⟩
      rw [renamed.claimed_eq declared ranked known, map_eq_ok_iff] at done
      rcases done with ⟨own, done, _⟩
      exact ⟨own, done⟩
    · rw [← renamed.closed.covers] at known
      exact ⟨_, claimed_of_none (List.getElem?_eq_none (Nat.le_of_not_lt known))⟩

/-- Both programs take a step, to the same grid up to numbers, or neither does. -/
theorem nextGrid_alike (declared : grid.Declared first) (ranked : grid.shape.length = first.rank)
    {scratch scratch' : Grid Nat} (same : scratch.shape = grid.shape)
    (same' : scratch'.shape = grid.shape) :
    Alike (fun next next' : Grid Nat =>
        next' = next.map (first.registry.renumber rename second.registry) ∧
          next.shape = grid.shape ∧ next.Declared first)
      (first.nextGrid ⟨grid, scratch⟩)
      (second.nextGrid
        ⟨grid.map (first.registry.renumber rename second.registry), scratch'⟩) := by
  apply Alike.of_iff
  · rw [exists_nextGrid_iff same, exists_nextGrid_iff same']
    exact renamed.exists_claimed_iff declared ranked
  · intro next next' stepped stepped'
    rcases renamed.closed.declared_nextGrid declared same stepped with ⟨shape, declared'⟩
    rcases exists_of_nextGrid same stepped with ⟨targets, done, rfl⟩
    rcases exists_of_nextGrid same' stepped' with ⟨targets', done', rfl⟩
    constructor
    · apply patch_map
      intro cell inside
      have own := renamed.claimed_eq declared ranked (declared cell inside)
      dsimp only at done done'
      rw [done, done'] at own
      exact congrFun (Except.ok.inj own) cell
    · exact ⟨shape, declared'⟩

end Renamed

end Program

end Cellular
