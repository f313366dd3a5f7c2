import Cellular.Engine.Basic
import Cellular.Proofs.Outcome
import Cellular.Proofs.Space.Pointwise
import Cellular.Proofs.States.Registry
import Cellular.Proofs.States.Tables
import Mathlib.Logic.Basic

/-!
# First grids

The first grid of a run has the shape that was asked for. A cell that is mentioned holds
the state it is given, and any other cell holds the default state.
-/

namespace Cellular

/-! ## Refusals -/

/-- A report in which every number can be written is given. -/
theorem ConfigurationFault.refusal_of_writable {fault : ConfigurationFault}
    (writable : ∀ n ∈ fault.numbers, isWritable n) : fault.refusal = .configuration fault :=
  if_pos (List.all_eq_true.mpr writable)

theorem ConfigurationFault.refusal_of_unwritable {fault : ConfigurationFault} {n : Int}
    (member : n ∈ fault.numbers) (long : isWritable n = false) : fault.refusal = .unwritable := by
  apply if_neg
  intro writable
  exact Bool.false_ne_true (long.symm.trans (List.all_eq_true.mp writable n member))

/-! ## Coordinates -/

/-- What is wrong with a coordinate that names no cell of a grid. -/
def absence (cell : Vec) (shape : List Nat) : ConfigurationFault :=
  if cell.length ≠ shape.length then .coordinateRank cell shape.length
  else .outside cell (shape.map Int.ofNat)

/-- The report of a coordinate shows the whole coordinate. -/
theorem mem_numbers_absence_of_mem {cell : Vec} {shape : List Nat} {n : Int}
    (component : n ∈ cell) : n ∈ (absence cell shape).numbers := by
  rw [absence]
  split <;> exact List.mem_append_left _ component

theorem checkCoordinate_eq (shape : List Nat) (cell : Vec) :
    checkCoordinate cell (shape.map Int.ofNat) =
      if isCell cell shape then .ok cell else .error (absence cell shape).refusal := by
  have extents : (shape.map Int.ofNat).map Int.toNat = shape := by
    rw [List.map_map]
    exact List.map_id shape
  rw [checkCoordinate, extents, List.length_map, isCell, absence]
  by_cases length : cell.length = shape.length <;> simp [length]

theorem checkCoordinate_eq_ok_iff {shape : List Nat} {cell other : Vec} :
    checkCoordinate cell (shape.map Int.ofNat) = .ok other ↔ isCell cell shape ∧ cell = other := by
  rw [checkCoordinate_eq]
  by_cases inside : isCell cell shape = true <;> simp [inside]

theorem Grid.checkCoordinate_of_isCell {α : Type} {grid : Grid α} {cell : Vec}
    (inside : isCell cell grid.shape) : checkCoordinate cell grid.extents = .ok cell :=
  checkCoordinate_eq_ok_iff.mpr ⟨inside, rfl⟩

theorem Snapshot.get_eq_ok_of_isCell {picture : Snapshot} {cell : Vec} {name : String}
    (inside : isCell cell picture.grid.shape)
    (named : picture.registry.nameOf (picture.grid.getD cell 0) = name) :
    picture.get cell = .ok name := by
  rw [get, Grid.checkCoordinate_of_isCell inside]
  exact congrArg Except.ok named

/-! ## Grids without gaps -/

private theorem eq_map_some {α : Type} {items : List (Option α)}
    (complete : ∀ item ∈ items, item.isSome) : items = (items.filterMap id).map some := by
  induction items with
  | nil => rfl
  | cons item items ih =>
      rcases List.forall_mem_cons.mp complete with ⟨first, others⟩
      rcases Option.isSome_iff_exists.mp first with ⟨a, rfl⟩
      have kept : (some a :: items).filterMap id = a :: items.filterMap id := rfl
      rw [kept, List.map_cons, ← ih others]

/-- A grid without gaps shows the values of its cells. -/
theorem Grid.map_some_of_allSome? {α : Type} {grid : Grid (Option α)} {full : Grid α}
    (done : grid.allSome? = some full) : grid = full.map some := by
  simp only [allSome?] at done
  split at done
  · rename_i complete
    obtain rfl := Option.some.inj done
    have each : ∀ item ∈ grid.cells.toList, item.isSome := by
      have kept : (grid.cells.toList.filterMap id).length = grid.cells.toList.length := by
        rw [← Array.toList_filterMap, Array.length_toList, Array.length_toList]
        exact complete.trans grid.size_eq.symm
      exact List.filterMap_length_eq_length.mp kept
    rcases grid with ⟨shape, cells, size_eq⟩
    simp only [map, mk.injEq, true_and]
    rw [← Array.toList_inj, Array.toList_map, Array.toList_filterMap]
    exact eq_map_some each
  · exact absurd done (by simp)

theorem Grid.allSome?_eq_some_iff {α : Type} {grid : Grid (Option α)} {full : Grid α} :
    grid.allSome? = some full ↔ grid = full.map some := by
  constructor
  · exact map_some_of_allSome?
  · rintro rfl
    rcases full with ⟨shape, cells, size_eq⟩
    have kept : (cells.map some).filterMap id = cells := by
      rw [Array.filterMap_map, Function.id_comp, Array.filterMap_some]
    simp only [allSome?, map, kept]
    exact dif_pos size_eq

/-! ## Placing states -/

namespace Program

variable {program : Program}

/-- A placed state is declared, and its cell exists. -/
theorem place_eq_ok_iff {grid next : Grid (Option Nat)} {entry : Vec × String} :
    program.place grid entry = .ok next ↔
      isCell entry.1 grid.shape ∧
        ∃ state, program.registry.indexOf? entry.2 = some state ∧
          grid.set entry.1 (some state) = next := by
  rw [place, bind_eq_ok_iff]
  simp only [Grid.extents, checkCoordinate_eq_ok_iff]
  constructor
  · rintro ⟨cell, ⟨inside, rfl⟩, placed⟩
    split at placed
    · rename_i state known
      exact ⟨inside, state, known, pure_eq_ok_iff.mp placed⟩
    · exact absurd placed (by simp [throw, throwThe, MonadExceptOf.throw])
  · rintro ⟨inside, state, known, rfl⟩
    refine ⟨entry.1, ⟨inside, rfl⟩, ?_⟩
    rw [known]
    rfl

/-- Entries can be placed exactly if their cells exist and their states are declared. -/
theorem exists_foldlM_place_iff {entries : List (Vec × String)} {grid : Grid (Option Nat)}
    {shape : List Nat} (same : grid.shape = shape) :
    (∃ last, entries.foldlM program.place grid = .ok last) ↔
      ∀ entry ∈ entries, isCell entry.1 shape ∧ program.registry.declares entry.2 := by
  induction entries generalizing grid with
  | nil => exact ⟨fun _ => nofun, fun _ => ⟨grid, rfl⟩⟩
  | cons entry entries ih =>
      have same' : ∀ state, (grid.set entry.1 state).shape = shape := fun _ => same
      simp only [List.foldlM_cons, bind_eq_ok_iff, List.forall_mem_cons]
      constructor
      · rintro ⟨last, next, first, placed⟩
        rcases place_eq_ok_iff.mp first with ⟨inside, state, known, rfl⟩
        have others := (ih (same' _)).mp ⟨last, placed⟩
        exact ⟨⟨same ▸ inside, Registry.declares_iff.mpr ⟨state, known⟩⟩, others⟩
      · rintro ⟨⟨inside, declared⟩, others⟩
        rcases Registry.declares_iff.mp declared with ⟨state, known⟩
        rcases (ih (same' (some state))).mpr others with ⟨last, placed⟩
        exact ⟨last, _, place_eq_ok_iff.mpr ⟨same ▸ inside, state, known, rfl⟩, placed⟩

/-- States that are placed one after the other into different cells are all there in the
end, and no other cell changes. -/
theorem foldlM_place {entries : List (Vec × String)} {grid last : Grid (Option Nat)}
    (distinct : (entries.map Prod.fst).Nodup)
    (placed : entries.foldlM program.place grid = .ok last) :
    last.shape = grid.shape ∧ ∀ cell,
      match entries.lookup cell with
      | some name => isCell cell grid.shape ∧
          ∃ state, program.registry.indexOf? name = some state ∧
            last.get? cell = some (some state)
      | none => last.get? cell = grid.get? cell := by
  induction entries generalizing grid with
  | nil =>
      obtain rfl := pure_eq_ok_iff.mp placed
      exact ⟨rfl, fun _ => rfl⟩
  | cons entry entries ih =>
      rw [List.foldlM_cons, bind_eq_ok_iff] at placed
      rcases placed with ⟨next, first, placed⟩
      rcases place_eq_ok_iff.mp first with ⟨inside, state, known, rfl⟩
      rcases List.nodup_cons.mp distinct with ⟨fresh, distinct⟩
      rcases ih distinct placed with ⟨shape_eq, shown⟩
      constructor
      · exact shape_eq
      · intro cell
        have own := shown cell
        by_cases same : cell = entry.1
        · have missing : entries.lookup cell = none := by
            rw [List.lookup_eq_none_iff]
            intro other member
            rw [bne_iff_ne, same]
            intro equal
            exact fresh (equal ▸ List.mem_map_of_mem member)
          subst same
          rw [List.lookup_cons, beq_self_eq_true]
          rw [missing] at own
          refine ⟨inside, state, known, ?_⟩
          rw [own, Grid.get?_set _ inside, if_pos rfl]
        · have next : List.lookup cell (entry :: entries) = entries.lookup cell := by
            rw [List.lookup_cons, beq_false_of_ne same]
          rw [next]
          cases found : entries.lookup cell with
          | some name =>
              rw [found] at own
              exact own
          | none =>
              rw [found] at own
              rw [own, Grid.get?_set _ inside, if_neg same]

/-! ## Initial assignments -/

private theorem get?_eq_lookup (table : Table Vec String) (cell : Vec) :
    table.get? cell = table.entries.lookup cell := by
  have same : (instBEqOfDecidableEq : BEq Vec) = List.instBEq := lawful_beq_subsingleton _ _
  rw [Table.get?, same]

private theorem get?_initial (initial : Option (Table Vec String)) (cell : Vec) :
    initial.bind (·.get? cell) = ((initial.map Table.entries).getD []).lookup cell := by
  cases initial with
  | none => rfl
  | some table => exact get?_eq_lookup table cell

private theorem nodup_initial (initial : Option (Table Vec String)) :
    (((initial.map Table.entries).getD []).map Prod.fst).Nodup := by
  cases initial with
  | none => exact List.nodup_nil
  | some table => exact table.nodup

/-! ## The first grid -/

/-- The name that a cell is given at first: its own, or that of the default state. -/
def initialName (program : Program) (initial : Option (Table Vec String)) (cell : Vec) :
    Option String :=
  ((initial.bind (·.get? cell))).or (program.registry.default?.map State.name)

/-- The state that a cell is given at first: its own, or the default state. -/
def initialState (program : Program) (initial : Option (Table Vec String)) (cell : Vec) :
    Option Nat :=
  match initial.bind (·.get? cell) with
  | some name => program.registry.indexOf? name
  | none => program.registry.default?.map fun state => state.index.toNat

/-- There is a shape for a new grid if the dimensions have one and there is something to
start from. -/
theorem newShape_eq_ok_iff {dimensions : Option (List Scalar)}
    {initial : Option (Table Vec String)} {shape : List Nat} :
    program.newShape dimensions initial = .ok shape ↔
      program.resolveDimensions dimensions = .ok shape ∧
        (program.registry.default?.isSome ∨ initial.isSome) := by
  rw [newShape, bind_eq_ok_iff]
  constructor
  · rintro ⟨own, resolved, done⟩
    split at done
    · exact absurd done (by simp [throw, throwThe, MonadExceptOf.throw, bind, Except.bind])
    · rename_i start
      obtain rfl := pure_eq_ok_iff.mp done
      simp only [Bool.and_eq_true, not_and_or, Bool.not_eq_true, Option.isNone_eq_false_iff]
        at start
      exact ⟨resolved, start⟩
  · rintro ⟨resolved, start⟩
    refine ⟨shape, resolved, if_neg ?_⟩
    simp only [Bool.and_eq_true, not_and_or, Bool.not_eq_true, Option.isNone_eq_false_iff]
    exact start

/-- After all entries are placed, every cell holds what it is given at first. -/
private theorem eq_ofFn_initialState {initial : Option (Table Vec String)} {shape : List Nat}
    {last : Grid (Option Nat)}
    (placed : ((initial.map Table.entries).getD []).foldlM program.place
      (Grid.fill shape (program.registry.default?.map fun state => state.index.toNat)) =
        .ok last) : last = Grid.ofFn shape (program.initialState initial) := by
  rcases foldlM_place (nodup_initial initial) placed with ⟨same, shown⟩
  apply Grid.eq_ofFn same
  intro cell inside
  have own := shown cell
  rw [initialState, get?_initial]
  cases found : ((initial.map Table.entries).getD []).lookup cell with
  | some name =>
      rw [found] at own
      rcases own with ⟨_, state, known, shows⟩
      simp only [shows, known]
  | none =>
      rw [found] at own
      rw [own, Grid.get?_fill, if_pos (by exact inside)]

/-- A grid is the first one exactly if it has the shape that was asked for, everything that
is mentioned exists, and every cell holds the state that it is given at first. -/
theorem initialGrid_eq_ok_iff {dimensions : Option (List Scalar)}
    {initial : Option (Table Vec String)} {grid : Grid Nat} :
    program.initialGrid dimensions initial = .ok grid ↔
      program.newShape dimensions initial = .ok grid.shape ∧
        (∀ entry ∈ (initial.map Table.entries).getD [],
          isCell entry.1 grid.shape ∧ program.registry.declares entry.2) ∧
        ∀ cell, isCell cell grid.shape →
          program.initialState initial cell = some (grid.getD cell 0) := by
  have shows : ∀ shape, Grid.ofFn shape (program.initialState initial) = grid.map some ↔
      grid.shape = shape ∧ ∀ cell, isCell cell shape →
        program.initialState initial cell = some (grid.getD cell 0) := by
    intro shape
    rw [Grid.map_eq_ofFn grid some 0]
    constructor
    · intro same
      obtain rfl : shape = grid.shape := congrArg Grid.shape same
      refine ⟨rfl, fun cell inside => ?_⟩
      have own := congrArg (·.get? cell) same
      simp only [Grid.get?_ofFn_of_isCell inside] at own
      exact Option.some.inj own
    · rintro ⟨rfl, given⟩
      exact Grid.ofFn_congr given
  constructor
  · intro done
    rcases bind_eq_ok_iff.mp done with ⟨shape, shaped, done⟩
    rcases bind_eq_ok_iff.mp done with ⟨partly, placed, done⟩
    split at done
    case h_2 => exact absurd done (by simp [throw, throwThe, MonadExceptOf.throw])
    rename_i full complete
    obtain rfl := pure_eq_ok_iff.mp done
    rw [Grid.allSome?_eq_some_iff, eq_ofFn_initialState placed, shows] at complete
    rcases complete with ⟨rfl, given⟩
    exact ⟨shaped, (exists_foldlM_place_iff rfl).mp ⟨partly, placed⟩, given⟩
  · rintro ⟨shaped, mentioned, given⟩
    let default := program.registry.default?.map fun state => state.index.toNat
    have start : (Grid.fill grid.shape default).shape = grid.shape := rfl
    rcases (exists_foldlM_place_iff start).mpr mentioned with ⟨last, placed⟩
    have complete : last.allSome? = some grid := by
      rw [Grid.allSome?_eq_some_iff, eq_ofFn_initialState placed, shows]
      exact ⟨rfl, given⟩
    rw [initialGrid, shaped, ok_bind]
    dsimp only
    rw [placed, ok_bind, complete]
    rfl

/-- The first grid has the shape that was asked for, and every cell holds the state whose
name it is given at first. -/
theorem initialGrid_eq_ok {dimensions : Option (List Scalar)}
    {initial : Option (Table Vec String)} {grid : Grid Nat}
    (done : program.initialGrid dimensions initial = .ok grid) :
    program.resolveDimensions dimensions = .ok grid.shape ∧
      ∀ cell, isCell cell grid.shape →
        grid.getD cell 0 < program.registry.states.length ∧
          program.initialName initial cell = some (program.registry.nameOf (grid.getD cell 0)) := by
  rcases initialGrid_eq_ok_iff.mp done with ⟨shaped, _, given⟩
  refine ⟨(newShape_eq_ok_iff.mp shaped).1, ?_⟩
  intro cell inside
  have state := given cell inside
  rw [initialState] at state
  rw [initialName]
  split at state
  · rename_i name found
    rw [found, Registry.nameOf_of_indexOf? state]
    exact ⟨Registry.indexOf?_lt state, rfl⟩
  · rename_i missing
    rcases Option.map_eq_some_iff.mp state with ⟨default, known, same⟩
    rw [missing, known, ← same, Registry.nameOf_of_getElem? (Registry.getElem?_of_default? known)]
    exact ⟨Registry.default?_lt known, rfl⟩

end Program

/-- An engine starts with the first grid, if there is one. -/
theorem Engine.start_eq_ok_iff {engine started : Engine} {dimensions : Option (List Scalar)}
    {initial : Option (Table Vec String)} :
    engine.start dimensions initial = .ok started ↔
      ∃ grid, engine.program.initialGrid dimensions initial = .ok grid ∧
        started = ⟨engine.program, some ⟨grid, Grid.fill grid.shape 0⟩, 0⟩ := by
  simp only [start, bind_eq_ok_iff, mapError_eq_ok_iff, pure_eq_ok_iff, @eq_comm _ started]

end Cellular
