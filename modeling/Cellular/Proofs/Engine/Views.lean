import Cellular.Proofs.Engine.Handshake
import Cellular.Proofs.Text.Digits

/-!
# Views of a picture

A picture can be read cell by cell, as a list of all cells, as a map from cells to names, or
state by state. All of these show the same, because every cell holds a declared state and no
two states share a name. For the same reasons a picture is known by its names and its map: the
keys of the map are the cells of a grid without empty axes, which tell its extents, and names
lead back to the states they came from.
-/

namespace Cellular

/-! ## Extents and cells -/

/-- The last cell of a grid. -/
def lastCell (shape : List Nat) : Vec :=
  shape.map fun n : Nat => (n : Int) - 1

theorem liesIn_lastCell {shape : List Nat} (positive : ∀ n ∈ shape, 1 ≤ n) :
    (lastCell shape).LiesIn shape := by
  rw [Vec.LiesIn, lastCell, List.forall₂_map_left_iff, List.forall₂_same]
  intro n member
  have := positive n member
  omega

/-- The extents of a grid that has the last cell of another one are no smaller. -/
theorem le_of_liesIn_lastCell {shape other : List Nat} (inside : (lastCell shape).LiesIn other) :
    List.Forall₂ (· ≤ ·) shape other := by
  rw [Vec.LiesIn, lastCell, List.forall₂_map_left_iff] at inside
  apply inside.imp
  omega

/-- The cells of a grid without empty axes tell its extents. -/
theorem shape_eq_of_liesIn_iff {shape other : List Nat} (positive : ∀ n ∈ shape, 1 ≤ n)
    (positive' : ∀ n ∈ other, 1 ≤ n)
    (same : ∀ cell : Vec, cell.LiesIn shape ↔ cell.LiesIn other) : shape = other := by
  have below := le_of_liesIn_lastCell ((same _).mp (liesIn_lastCell positive))
  have above := le_of_liesIn_lastCell ((same _).mpr (liesIn_lastCell positive'))
  apply List.ext_getElem below.length_eq
  intro i inFirst inSecond
  exact Nat.le_antisymm (below.get inFirst inSecond) (above.get inSecond inFirst)

/-! ## Pictures of reachable engines -/

/-- A picture that was taken of a ready engine of a loaded program. -/
def Snapshot.IsTaken (picture : Snapshot) : Prop :=
  ∃ source program engine, load source = .ok program ∧ Reachable program engine ∧
    engine.snapshot = .ok picture

/-- What all pictures have in common: there are no empty axes, every cell holds a state, and
no two states share a name. -/
structure Snapshot.Proper (picture : Snapshot) : Prop where
  positive : ∀ n ∈ picture.grid.shape, 1 ≤ n
  declared : ∀ cell, isCell cell picture.grid.shape →
    picture.grid.getD cell 0 < picture.registry.states.length
  distinct : picture.registry.names.Nodup

/-- No engine gets to a grid with an empty axis. -/
theorem Reachable.storable {source : String} {program : Program}
    {declarations : List Declaration} {parts : Parts} {validated : Validated}
    (loaded : Loaded source program declarations parts validated) {engine : Engine}
    (reachable : Reachable program engine) :
    ∀ shape ∈ engine.current.map Grid.shape, Storable none shape := by
  induction reachable with
  | fresh => exact fun _ none => nomatch none
  | started reachable done _ => exact loaded.storable_of_startWithin reachable.program_eq done
  | @stepped engine next reachable done ih =>
      have stepped : engine.stepWithin none = .ok next := done
      exact ((reachable.sound loaded.sound).continues_of_step stepped).shape ▸ ih
  | @ran engine next generations picture reachable done ih =>
      have ran : engine.runWithin none generations = .ok (next, picture) := done
      exact ((reachable.sound loaded.sound).continues_of_run ran).shape ▸ ih

theorem Snapshot.IsTaken.proper {picture : Snapshot} (taken : picture.IsTaken) :
    picture.Proper := by
  rcases taken with ⟨source, program, engine, loaded, reachable, shown⟩
  rcases loaded_of_load loaded with ⟨declarations, parts, validated, origin⟩
  rcases Engine.current_of_snapshot shown with ⟨ready, registry⟩
  have holds := reachable.holds loaded ready
  rw [holds.runs] at registry
  constructor
  · exact (reachable.storable origin _ (ready ▸ rfl)).positive
  · rw [registry]
    exact holds.declared
  · rw [registry]
    exact holds.distinct

/-! ## Reading a picture -/

/-- All views of a picture show the same. -/
structure Snapshot.Coherent (picture : Snapshot) : Prop where
  /-- Iteration visits cells in strictly increasing lexicographic order, -/
  increasing : (picture.entries.map Prod.fst).Pairwise (· < ·)
  /-- which are all cells of the grid, -/
  visited : ∀ cell, cell ∈ picture.entries.map Prod.fst ↔ cell.LiesIn picture.grid.shape
  /-- each at its place in row-major order, -/
  places : ∀ cell, cell.LiesIn picture.grid.shape →
    (picture.entries.map Prod.fst)[rowIndex cell picture.grid.shape]? = some cell
  /-- with the name that is read there. -/
  read : ∀ cell name, (cell, name) ∈ picture.entries ↔ picture.get cell = .ok name
  /-- The map has the same names under the same cells. -/
  mapped : ∀ cell name, picture.toTable.get? cell = some name ↔ picture.get cell = .ok name
  /-- The cells in a declared state are listed in increasing order. They are those that the
  map takes to its name, and the count is their number. -/
  states : ∀ name ∈ picture.registry.names, ∃ cells, picture.cellsIn name = .ok cells ∧
    cells.Pairwise (· < ·) ∧ (∀ cell, cell ∈ cells ↔ picture.toTable.get? cell = some name) ∧
      picture.count name = .ok cells.length
  /-- The counts of all states add up to the number of cells, -/
  total : ∃ counts : List Nat, picture.registry.names.map picture.count = counts.map .ok ∧
    counts.sum = picture.size
  /-- which is the product of the extents. -/
  size : picture.size = picture.grid.shape.prod
  /-- Reading is refused exactly at coordinates of another rank and outside the grid, -/
  refused : ∀ cell refusal, picture.get cell = .error refusal ↔
    ¬cell.LiesIn picture.grid.shape ∧ refusal = (absence cell picture.grid.shape).refusal
  /-- and the configuration is at fault, as long as the report can be written. -/
  faults : ∀ cell fault, (∀ n ∈ (absence cell picture.grid.shape).numbers, isWritable n) →
    (picture.get cell = .error (.configuration fault) ↔
      (cell.length ≠ picture.grid.shape.length ∧
        fault = .coordinateRank cell picture.grid.shape.length) ∨
      (cell.length = picture.grid.shape.length ∧ ¬cell.LiesIn picture.grid.shape ∧
        fault = .outside cell picture.grid.extents))

namespace Snapshot

variable {picture : Snapshot}

theorem get_eq_ok_iff {cell : Vec} {name : String} : picture.get cell = .ok name ↔
    cell.LiesIn picture.grid.shape ∧
      picture.registry.nameOf (picture.grid.getD cell 0) = name := by
  rw [← isCell_iff_liesIn, get]
  constructor
  · intro done
    rcases bind_eq_ok_iff.mp done with ⟨other, checked, named⟩
    rcases checkCoordinate_eq_ok_iff.mp checked with ⟨inside, rfl⟩
    exact ⟨inside, Except.ok.inj named⟩
  · rintro ⟨inside, named⟩
    exact get_eq_ok_of_isCell inside named

theorem get_eq_error_iff {cell : Vec} {refusal : Refusal} : picture.get cell = .error refusal ↔
    ¬cell.LiesIn picture.grid.shape ∧
      refusal = (absence cell picture.grid.shape).refusal := by
  rw [← isCell_iff_liesIn, get, Grid.extents, checkCoordinate_eq]
  by_cases inside : isCell cell picture.grid.shape = true
  · rw [if_pos inside, ok_bind]
    exact iff_of_false (by simp) fun refused => refused.1 inside
  · rw [if_neg inside]
    simp [inside, bind, Except.bind, @eq_comm _ refusal]

/-- If the report of a coordinate can be written, it says what is wrong with it. -/
theorem get_eq_configuration_iff {cell : Vec} {fault : ConfigurationFault}
    (writable : ∀ n ∈ (absence cell picture.grid.shape).numbers, isWritable n) :
    picture.get cell = .error (.configuration fault) ↔
      (cell.length ≠ picture.grid.shape.length ∧
        fault = .coordinateRank cell picture.grid.shape.length) ∨
      (cell.length = picture.grid.shape.length ∧ ¬cell.LiesIn picture.grid.shape ∧
        fault = .outside cell picture.grid.extents) := by
  rw [get_eq_error_iff, ConfigurationFault.refusal_of_writable writable,
    Refusal.configuration.injEq, absence, Grid.extents]
  by_cases length : cell.length = picture.grid.shape.length
  · simp [length]
  · have outside : ¬cell.LiesIn picture.grid.shape := fun inside => length inside.length_eq
    simp [length, outside]

theorem mem_entries_iff {cell : Vec} {name : String} :
    (cell, name) ∈ picture.entries ↔ picture.get cell = .ok name := by
  rw [entries_eq, get_eq_ok_iff, List.mem_map]
  constructor
  · rintro ⟨other, listed, same⟩
    rcases Prod.mk.inj same with ⟨rfl, rfl⟩
    exact ⟨isCell_iff_liesIn.mp (mem_coordinates.mp listed), rfl⟩
  · rintro ⟨inside, rfl⟩
    exact ⟨cell, mem_coordinates.mpr (isCell_iff_liesIn.mpr inside), rfl⟩

theorem get?_toTable_eq_some_iff {cell : Vec} {name : String} :
    picture.toTable.get? cell = some name ↔ picture.get cell = .ok name := by
  rw [Table.get?_eq_some_iff, entries_toTable, mem_entries_iff]

namespace Proper

variable (proper : picture.Proper)

include proper

/-- The cells that show a state are those where its name is read. -/
theorem showsAt_iff {name : String} {state : Nat}
    (known : picture.registry.indexOf? name = some state) {cell : Vec}
    (listed : cell ∈ coordinates picture.grid.shape) :
    picture.grid.showsAt state cell = true ↔ picture.get cell = .ok name := by
  have inside := mem_coordinates.mp listed
  rw [Snapshot.showsAt_iff listed, beq_iff_eq, get_eq_ok_iff, ← isCell_iff_liesIn,
    and_iff_right inside, @eq_comm _ _ name,
    Registry.eq_nameOf_iff proper.distinct (proper.declared cell inside) known, eq_comm]

theorem states {name : String} (declared : name ∈ picture.registry.names) :
    ∃ cells, picture.cellsIn name = .ok cells ∧ cells.Pairwise (· < ·) ∧
      (∀ cell, cell ∈ cells ↔ picture.toTable.get? cell = some name) ∧
        picture.count name = .ok cells.length := by
  rcases Registry.mem_names_iff.mp declared with ⟨state, known⟩
  refine ⟨_, cellsIn_eq known, ?_, ?_, ?_⟩
  · apply List.Pairwise.filter
    exact (Vec.increasing_coordinates _).imp fun before => Vec.lt_of_le_of_ne before.1 before.2
  · intro cell
    rw [get?_toTable_eq_some_iff, List.mem_filter]
    constructor
    · rintro ⟨listed, shown⟩
      exact (proper.showsAt_iff known listed).mp shown
    · intro read
      have listed := mem_coordinates.mpr (isCell_iff_liesIn.mpr (get_eq_ok_iff.mp read).1)
      exact ⟨listed, (proper.showsAt_iff known listed).mpr read⟩
  · rw [count_eq known, List.countP_eq_length_filter]

/-- Every cell is counted once, for the state that it holds. -/
theorem total : ∃ counts : List Nat,
    picture.registry.names.map picture.count = counts.map .ok ∧ counts.sum = picture.size := by
  let held := (coordinates picture.grid.shape).map (picture.grid.getD · 0)
  refine ⟨(List.range picture.registry.states.length).map held.count, ?_, ?_⟩
  · rw [← Registry.map_nameOf_range, List.map_map, List.map_map]
    apply List.map_congr_left
    intro state below
    have known := Registry.indexOf?_nameOf proper.distinct (List.mem_range.mp below)
    rw [Function.comp_apply, Function.comp_apply, count_eq known, List.count_eq_countP,
      List.countP_map]
    apply congrArg Except.ok
    apply List.countP_congr
    intro cell listed
    rw [Snapshot.showsAt_iff listed]
    rfl
  · have below : ∀ state ∈ held, state ∈ List.range picture.registry.states.length := by
      intro state member
      rcases List.mem_map.mp member with ⟨cell, listed, rfl⟩
      exact List.mem_range.mpr (proper.declared cell (mem_coordinates.mp listed))
    rw [sum_map_count List.nodup_range below, List.length_map, length_coordinates, size,
      picture.grid.size_eq]

theorem coherent : picture.Coherent where
  increasing := by
    rw [map_fst_entries]
    exact (Vec.increasing_coordinates _).imp fun before => Vec.lt_of_le_of_ne before.1 before.2
  visited cell := by rw [map_fst_entries, mem_coordinates, isCell_iff_liesIn]
  places cell inside := by
    rw [map_fst_entries]
    exact coordinates_rowIndex (isCell_iff_liesIn.mpr inside)
  read _ _ := mem_entries_iff
  mapped _ _ := get?_toTable_eq_some_iff
  states _ declared := proper.states declared
  total := proper.total
  size := picture.grid.size_eq
  refused _ _ := get_eq_error_iff
  faults _ _ writable := get_eq_configuration_iff writable

/-- The names that a picture shows are those of the states, number by number. -/
theorem names_getElem?_eq {cell : Vec} {name : String} (read : picture.get cell = .ok name) :
    picture.registry.names[picture.grid.getD cell 0]? = some name := by
  rcases get_eq_ok_iff.mp read with ⟨inside, rfl⟩
  exact Registry.names_getElem? (proper.declared cell (isCell_iff_liesIn.mpr inside))

/-- Pictures with the same names and the same map show the same grid. -/
theorem grid_eq {other : Snapshot} (proper' : other.Proper)
    (names : picture.registry.names = other.registry.names)
    (mapped : ∀ cell, picture.toTable.get? cell = other.toTable.get? cell) :
    picture.grid = other.grid := by
  have alike : ∀ cell name, picture.get cell = .ok name ↔ other.get cell = .ok name := by
    intro cell name
    rw [← get?_toTable_eq_some_iff, ← get?_toTable_eq_some_iff, mapped cell]
  have shape : picture.grid.shape = other.grid.shape := by
    apply shape_eq_of_liesIn_iff proper.positive proper'.positive
    intro cell
    constructor
    · intro inside
      exact (get_eq_ok_iff.mp ((alike cell _).mp (get_eq_ok_iff.mpr ⟨inside, rfl⟩))).1
    · intro inside
      exact (get_eq_ok_iff.mp ((alike cell _).mpr (get_eq_ok_iff.mpr ⟨inside, rfl⟩))).1
  rw [← Grid.ofFn_getD picture.grid 0, ← Grid.ofFn_getD other.grid 0, ← shape]
  apply Grid.ofFn_congr
  intro cell inside
  have read : picture.get cell = .ok _ := get_eq_ok_iff.mpr ⟨isCell_iff_liesIn.mp inside, rfl⟩
  have first := proper.names_getElem?_eq read
  have second := proper'.names_getElem?_eq ((alike cell _).mp read)
  rw [← names, ← first] at second
  have bound := (List.getElem?_eq_some_iff.mp first).1
  exact (List.getElem?_inj bound proper.distinct).mp second.symm

end Proper

/-- What a picture shows only depends on its grid and on the names. -/
theorem toTable_eq {other : Snapshot} (names : picture.registry.names = other.registry.names)
    (grid : picture.grid = other.grid) : picture.toTable = other.toTable := by
  have named : ∀ i, picture.registry.nameOf i = other.registry.nameOf i := by
    intro i
    rw [Registry.nameOf_eq, Registry.nameOf_eq, ← List.getElem?_map, ← List.getElem?_map,
      ← Registry.names, ← Registry.names, names]
  rw [toTable, toTable, entries_eq, entries_eq, grid]
  simp only [named]

end Snapshot

/-- All views of a picture that was taken of a reachable engine agree: iteration, lookups by
coordinates, the map, the cells in a state, and counts. Two pictures are the same exactly if
they have the same names in the same order and the same map. -/
theorem views_agree {picture : Snapshot} (taken : picture.IsTaken) :
    picture.Coherent ∧ ∀ other : Snapshot, other.IsTaken →
      (picture.same other = true ↔ picture.registry.names = other.registry.names ∧
        picture.toTable.same other.toTable = true) := by
  have proper := taken.proper
  refine ⟨proper.coherent, ?_⟩
  intro other taken'
  rw [Snapshot.same_iff, Table.same_iff]
  constructor
  · rintro ⟨names, grid⟩
    exact ⟨names, fun cell => by rw [Snapshot.toTable_eq names grid]⟩
  · rintro ⟨names, mapped⟩
    exact ⟨names, proper.grid_eq taken'.proper names mapped⟩

/-- The picture of a ring of two cells at its start. -/
theorem exists_taken_ring : ∃ picture : Snapshot, picture.IsTaken ∧
    picture.entries = [([0], "A"), ([1], "A")] := by
  have done : ((load ringSource).toOption.bind fun program =>
      (Engine.start { program } none none).toOption.bind fun engine =>
        engine.snapshot.toOption.map Snapshot.entries) = some [([0], "A"), ([1], "A")] := by
    rw [load, readValidated, readProgram_ring]
    simp only [bind, Except.bind, Except.mapError, validate, checkOffsets_ring]
    decide +kernel
  rcases Option.bind_eq_some_iff.mp done with ⟨program, loaded, done⟩
  rcases Option.bind_eq_some_iff.mp done with ⟨engine, started, done⟩
  rcases Option.map_eq_some_iff.mp done with ⟨picture, shown, entries⟩
  exact ⟨picture, ⟨ringSource, program, engine, eq_ok_of_toOption loaded,
    .started .fresh (eq_ok_of_toOption started), eq_ok_of_toOption shown⟩, entries⟩

theorem views_agree_ring : ∃ picture : Snapshot, picture.IsTaken ∧ picture.Coherent ∧
    picture.entries = [([0], "A"), ([1], "A")] ∧
    (picture.same picture = true ↔ picture.registry.names = picture.registry.names ∧
      picture.toTable.same picture.toTable = true) := by
  rcases exists_taken_ring with ⟨picture, taken, entries⟩
  rcases views_agree taken with ⟨coherent, same⟩
  exact ⟨picture, taken, coherent, entries, same picture taken⟩

/-- A coordinate with a component that is too long to be written is not reported. -/
theorem Snapshot.get_of_long_component {picture : Snapshot} {cell : Vec} {n : Int}
    (component : n ∈ cell) (long : isWritable n = false)
    (outside : ¬cell.LiesIn picture.grid.shape) : picture.get cell = .error .unwritable := by
  refine get_eq_error_iff.mpr ⟨outside, ?_⟩
  exact (ConfigurationFault.refusal_of_unwritable (mem_numbers_absence_of_mem component) long).symm

/-- So not every coordinate outside the grid is said to be outside. -/
theorem get_of_power_ring : ∃ (picture : Snapshot) (cell : Vec), picture.IsTaken ∧
    cell = [((10 ^ greatestDigits : Nat) : Int)] ∧ ¬cell.LiesIn picture.grid.shape ∧
    ∀ fault, picture.get cell ≠ .error (.configuration fault) := by
  rcases exists_taken_ring with ⟨picture, taken, entries⟩
  have long := isWritable_pow_eq_false (Nat.le_refl greatestDigits)
  have outside : ¬Vec.LiesIn [((10 ^ greatestDigits : Nat) : Int)] picture.grid.shape := by
    rw [← taken.proper.coherent.visited, entries]
    intro member
    rcases List.mem_pair.mp member with same | same
    · rw [(List.cons.inj same).1] at long
      exact absurd long (by decide)
    · rw [(List.cons.inj same).1] at long
      exact absurd long (by decide)
  refine ⟨picture, _, taken, rfl, outside, fun fault refused => ?_⟩
  have silent := Snapshot.get_of_long_component (List.mem_singleton_self _) long outside
  exact absurd (silent.symm.trans refused) nofun

end Cellular
