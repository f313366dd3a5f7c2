import Cellular.Proofs.Engine.Renamed
import Cellular.Proofs.Engine.Restored
import Cellular.Proofs.Space.Coordinates
import Mathlib.Algebra.BigOperators.Ring.Finset

/-!
# Counts of neighbours

An engine counts neighbours in two ways: for all cells at once, where the copies of the grid
are added up state by state, and for a single cell, where the neighbours are looked up one by
one. Both give the same counts. At each cell the counts of all states add up to the number of
neighbours that the cell has, since every neighbour holds a state of the program and what lies
outside the grid is no neighbour.
-/

namespace Cellular

/-! ## Counting in lists -/

/-- Every item of a list is counted once, if its value is among those that are counted. -/
theorem sum_map_count {keys items : List Nat} (distinct : keys.Nodup)
    (inside : ∀ a ∈ items, a ∈ keys) : (keys.map items.count).sum = items.length := by
  have members : ∀ a ∈ (items : Multiset Nat), a ∈ keys.toFinset := by
    intro a member
    exact List.mem_toFinset.mpr (inside a member)
  have total := Multiset.sum_count_eq_card members
  simp only [Multiset.coe_count, Multiset.coe_card] at total
  rw [← total, List.sum_toFinset _ distinct]

/-- How often each of the items of a list occurs in it. -/
def tally (items : List Nat) : List (Nat × Nat) :=
  (sortedSet Nat.ble items).map fun a => (a, items.count a)

theorem keys_tally (items : List Nat) : (tally items).map Prod.fst = sortedSet Nat.ble items := by
  rw [tally, List.map_map]
  exact List.map_id _

/-- What is not in a list occurs in it no times. -/
theorem getD_lookup_tally (items : List Nat) (a : Nat) :
    ((tally items).lookup a).getD 0 = items.count a := by
  by_cases member : a ∈ items
  · rw [tally, Program.lookup_map_self _ (mem_sortedSet.mpr member), Option.getD_some]
  · have absent : (tally items).lookup a = none := by
      rw [List.lookup_eq_none_iff]
      intro entry counted
      rcases List.mem_map.mp counted with ⟨b, occurs, rfl⟩
      rw [mem_sortedSet] at occurs
      rw [bne_iff_ne]
      rintro rfl
      exact member occurs
    rw [absent, List.count_eq_zero.mpr member, Option.getD_none]

theorem sum_tally (items : List Nat) : ((tally items).map Prod.snd).sum = items.length := by
  rw [tally, List.map_map]
  exact sum_map_count (nodup_sortedSet_nat items) fun a member => mem_sortedSet.mpr member

/-! ## How many neighbours a cell has -/

namespace Program

/-- The number of neighbours of a cell: one for every offset, but in a void only for the
offsets that lead to cells. -/
def neighborhoodSize (program : Program) (shape : List Nat) (cell : Vec) : Nat :=
  match program.boundary with
  | .wrap | .static _ => program.offsets.length
  | .void => program.offsets.countP fun offset => isCell (Vec.add cell offset) shape

theorem length_neighbors (program : Program) {grid : Grid Nat} {cell : Vec}
    (ranked : ∀ offset ∈ program.offsets, offset.length = grid.shape.length)
    (inside : isCell cell grid.shape) :
    (program.neighbors grid cell).length = program.neighborhoodSize grid.shape cell := by
  rw [neighbors, List.length_filterMap_eq_countP, neighborhoodSize]
  cases program.boundary with
  | static state => exact List.countP_eq_length.mpr fun _ _ => rfl
  | void =>
      apply List.countP_congr
      intro offset _
      rw [Boundary.neighborState, Grid.isSome_get?]
  | wrap =>
      apply List.countP_eq_length.mpr
      intro offset member
      rw [Boundary.neighborState, Grid.isSome_get?]
      exact isCell_wrapInto inside
        (Vec.length_add (length_eq_of_isCell inside) (ranked offset member))

end Program

/-! ## Ready engines -/

/-- An engine of a loaded program that is ready: its grid fits the program. -/
structure Engine.Holds (engine : Engine) (program : Program) (grid : Grid Nat) : Prop where
  runs : engine.program = program
  shows : engine.current = some grid
  closed : program.Closed
  distinct : program.registry.names.Nodup
  ranked : ∀ offset ∈ program.offsets, offset.length = grid.shape.length
  declared : grid.Declared program

theorem Reachable.holds {source : String} {program : Program} (loaded : load source = .ok program)
    {engine : Engine} (reachable : Reachable program engine) {grid : Grid Nat}
    (ready : engine.current = some grid) : engine.Holds program grid := by
  rcases loaded_of_load loaded with ⟨declarations, parts, validated, origin⟩
  rcases Option.map_eq_some_iff.mp ready with ⟨buffers, known, rfl⟩
  have same := reachable.program_eq
  have sound := (reachable.sound origin.sound).buffers buffers known
  rw [same] at sound
  have closed : program.Closed := origin.compiled ▸ origin.accepted.closed
  exact ⟨same, ready, closed, origin.distinct,
    fun offset member => (closed.ranked offset member).trans sound.ranked.symm, sound.declared⟩

namespace Engine.Holds

variable {engine : Engine} {program : Program} {grid : Grid Nat}
  (holds : engine.Holds program grid)

include holds

theorem require_eq (task : String) : engine.require task = .ok grid := by
  rcases Option.map_eq_some_iff.mp holds.shows with ⟨buffers, known, rfl⟩
  rw [Engine.require, Engine.requireBuffers, known]
  rfl

/-- The counts of all states, by name. -/
theorem neighborCounts_eq :
    engine.neighborCounts = .ok ((List.range program.registry.states.length).map fun state =>
      (program.registry.nameOf state,
        Grid.ofFn grid.shape (program.keptCountsAt grid · state))) := by
  rw [Engine.neighborCounts, holds.require_eq, holds.runs, ok_bind]
  simp only [program.countGrids_eq grid holds.ranked, List.map_map]
  rfl

theorem names_neighborCounts {counted : List (String × Grid Int)}
    (done : engine.neighborCounts = .ok counted) :
    counted.map Prod.fst = program.registry.names := by
  obtain rfl := Except.ok.inj (holds.neighborCounts_eq.symm.trans done)
  rw [List.map_map]
  exact program.registry.map_nameOf_range

/-- The counts of a state are found under its name. -/
theorem lookup_neighborCounts {counted : List (String × Grid Int)}
    (done : engine.neighborCounts = .ok counted) {name : String} {state : Nat}
    (known : program.registry.indexOf? name = some state) :
    counted.lookup name = some (Grid.ofFn grid.shape (program.keptCountsAt grid · state)) := by
  have keys : (counted.map Prod.fst).Nodup := holds.names_neighborCounts done ▸ holds.distinct
  have member : (name, Grid.ofFn grid.shape (program.keptCountsAt grid · state)) ∈ counted := by
    obtain rfl := Except.ok.inj (holds.neighborCounts_eq.symm.trans done)
    apply List.mem_map.mpr
    refine ⟨state, List.mem_range.mpr (Registry.indexOf?_lt known), ?_⟩
    rw [Registry.nameOf_of_indexOf? known]
  exact (Table.get?_eq_some_iff : Table.get? ⟨counted, keys⟩ name = some _ ↔ _).mpr member

theorem cellCounts_eq {cell : Vec} (inside : isCell cell grid.shape) :
    engine.cellCounts cell = .ok (tally (program.neighbors grid cell)) := by
  rw [Engine.cellCounts, holds.require_eq, holds.runs, ok_bind,
    Grid.checkCoordinate_of_isCell inside]
  rfl

/-- The counts of all states at a cell add up to the number of its neighbours, as long as a cell
has room for them. -/
theorem sum_neighborCounts (few : program.offsets.length < countLimit)
    {counted : List (String × Grid Int)}
    (done : engine.neighborCounts = .ok counted) {cell : Vec} (inside : isCell cell grid.shape) :
    (counted.map fun (_, counts) => counts.getD cell 0).sum =
      (program.neighborhoodSize grid.shape cell : Int) := by
  have below : ∀ state ∈ program.neighbors grid cell,
      state ∈ List.range program.registry.states.length := fun state member =>
    List.mem_range.mpr (holds.closed.lt_of_mem_neighbors holds.declared member)
  have total := sum_map_count List.nodup_range below
  obtain rfl := Except.ok.inj (holds.neighborCounts_eq.symm.trans done)
  rw [← program.length_neighbors holds.ranked inside, ← total, Nat.cast_list_sum, List.map_map,
    List.map_map]
  apply congrArg List.sum
  apply List.map_congr_left
  intro state _
  refine (Grid.getD_ofFn inside _ 0).trans ?_
  rw [Program.keptCountsAt_eq few]
  rfl

/-- Counts are taken in so much memory exactly if there is room for them. -/
theorem neighborCountsInMemory_eq (memory : Nat) : engine.neighborCountsInMemory memory =
    (Engine.requireRoom (program.countFault? memory grid.shape
      (List.range program.registry.states.length)) >>= fun _ => engine.neighborCounts) := by
  rw [Engine.neighborCountsInMemory, holds.require_eq, holds.runs, ok_bind]

end Engine.Holds

/-! ## Both ways of counting -/

/-- In a ready engine the counts of all cells at once are what a cell keeps of the counts of a
single cell, name by name and number by number. At every cell the counts add up to the number
of its neighbours. As long as a cell has room for the number of all neighbours, both ways of
counting give the same. -/
theorem counts_agree {source : String} {program : Program} (loaded : load source = .ok program)
    {engine : Engine} (reachable : Reachable program engine) {grid : Grid Nat}
    (ready : engine.current = some grid) :
    ∃ counted, engine.neighborCounts = .ok counted ∧
      counted.map Prod.fst = program.registry.names ∧
      -- memory makes no difference, if there is enough
      (∀ memory, engine.neighborCountsInMemory memory =
        (Engine.requireRoom (program.countFault? memory grid.shape
          (List.range program.registry.states.length)) >>= fun _ => .ok counted)) ∧
      ∀ cell, isCell cell grid.shape → ∃ own, engine.cellCounts cell = .ok own ∧
        -- a cell has counts of states of the program only, each of them once
        (own.map Prod.fst).Nodup ∧
        (∀ entry ∈ own, entry.1 < program.registry.states.length ∧ 0 < entry.2) ∧
        -- what the whole grid shows at the cell is kept of them, or of zero if there are none
        (∀ name state, program.registry.indexOf? name = some state →
          ∃ counts, counted.lookup name = some counts ∧ counts.shape = grid.shape ∧
            counts.get? cell = some (keptCount ((own.lookup state).getD 0)) ∧
            (own.lookup state).getD 0 ≤ program.offsets.length) ∧
        -- together they are the neighbours of the cell
        (own.map Prod.snd).sum = program.neighborhoodSize grid.shape cell ∧
        -- and if a cell has room for all neighbours, the whole grid shows the counts themselves
        (program.offsets.length < countLimit →
          (∀ name state, program.registry.indexOf? name = some state →
            ∃ counts, counted.lookup name = some counts ∧
              counts.get? cell = some ((own.lookup state).getD 0 : Int)) ∧
          (counted.map fun (_, counts) => counts.getD cell 0).sum =
            (program.neighborhoodSize grid.shape cell : Int)) := by
  have holds := reachable.holds loaded ready
  refine ⟨_, holds.neighborCounts_eq, holds.names_neighborCounts holds.neighborCounts_eq,
    fun memory => (holds.neighborCountsInMemory_eq memory).trans
      (by rw [holds.neighborCounts_eq]), ?_⟩
  intro cell inside
  have shown : ∀ name state, program.registry.indexOf? name = some state →
      ∃ counts, List.lookup name ((List.range program.registry.states.length).map fun state =>
          (program.registry.nameOf state,
            Grid.ofFn grid.shape (program.keptCountsAt grid · state))) = some counts ∧
        counts.shape = grid.shape ∧ counts.get? cell =
          some (keptCount (((tally (program.neighbors grid cell)).lookup state).getD 0)) ∧
        ((tally (program.neighbors grid cell)).lookup state).getD 0 ≤ program.offsets.length := by
    intro name state known
    refine ⟨_, holds.lookup_neighborCounts holds.neighborCounts_eq known, rfl, ?_, ?_⟩
    · rw [Grid.get?_ofFn_of_isCell inside, getD_lookup_tally]
      rfl
    · rw [getD_lookup_tally]
      exact program.count_neighbors_le grid cell state
  refine ⟨_, holds.cellCounts_eq inside, ?_, ?_, shown, ?_, ?_⟩
  · rw [keys_tally]
    exact nodup_sortedSet_nat _
  · intro entry counted
    rcases List.mem_map.mp counted with ⟨state, occurs, rfl⟩
    rw [mem_sortedSet] at occurs
    exact ⟨holds.closed.lt_of_mem_neighbors holds.declared occurs, List.count_pos_iff.mpr occurs⟩
  · rw [sum_tally, program.length_neighbors holds.ranked inside]
  · intro few
    refine ⟨fun name state known => ?_, holds.sum_neighborCounts few holds.neighborCounts_eq inside⟩
    rcases shown name state known with ⟨counts, found, _, kept, bounded⟩
    rw [keptCount_of_lt (Nat.lt_of_le_of_lt bounded few)] at kept
    exact ⟨counts, found, kept⟩

/-- On a ring with one offset every cell has one neighbour. -/
theorem counts_agree_ring : ∃ (program : Program) (engine : Engine) (grid : Grid Nat)
    (counted : List (String × Grid Int)), load ringSource = .ok program ∧
      Reachable program engine ∧ engine.current = some grid ∧
      engine.neighborCounts = .ok counted ∧ counted.map Prod.fst = program.registry.names ∧
      program.offsets.length < countLimit ∧
      ∀ cell, isCell cell grid.shape → ∃ own, engine.cellCounts cell = .ok own ∧
        (own.map Prod.snd).sum = 1 ∧
        (counted.map fun (_, counts) => counts.getD cell 0).sum = (1 : Int) := by
  rcases load_ring with ⟨program, engine, loaded, ⟨_, torus, offsets⟩, started⟩
  rcases Engine.start_eq_ok_iff.mp started with ⟨grid, first, rfl⟩
  have reachable := Reachable.started .fresh started
  have few : program.offsets.length < countLimit := by
    rw [offsets]
    decide
  rcases counts_agree loaded reachable rfl with ⟨counted, done, names, _, each⟩
  refine ⟨program, _, grid, counted, loaded, reachable, rfl, done, names, few, ?_⟩
  intro cell inside
  rcases each cell inside with ⟨own, known, _, _, _, total, kept⟩
  have everywhere := (kept few).2
  rw [Program.neighborhoodSize, torus, offsets] at total everywhere
  exact ⟨own, known, total, everywhere⟩

end Cellular
