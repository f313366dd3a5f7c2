import Cellular.Engine.Basic
import Cellular.Proofs.Outcome
import Cellular.Proofs.Program.Clauses
import Cellular.Proofs.Space.Neighbors
import Cellular.Proofs.Space.Sorted

/-!
# The step of a whole grid

The step of a grid follows the rows of clauses, one state after the other, and a row
follows its clauses. While a row is followed, a cell is pending if it held the state of the
row and no earlier clause fired there; a cell that is not pending is not touched. As every
cell belongs to one row only, the step gives each cell the follower of its own state,
computed from the counts around it in the grid before the step.
-/

namespace Cellular

namespace Program

/-! ## Counting -/

/-- The number of neighbours of a cell in each state. -/
def countsAt (program : Program) (grid : Grid Nat) (cell : Vec) (state : Nat) : Int :=
  (program.neighbors grid cell).count state

/-- What a cell keeps of the number of its neighbours in each state. -/
def keptCountsAt (program : Program) (grid : Grid Nat) (cell : Vec) (state : Nat) : Int :=
  keptCount ((program.neighbors grid cell).count state)

theorem count_neighbors_le (program : Program) (grid : Grid Nat) (cell : Vec) (state : Nat) :
    (program.neighbors grid cell).count state ≤ program.offsets.length :=
  Nat.le_trans List.count_le_length (List.length_filterMap_le ..)

/-- Counts that a cell has room for are kept as they are. -/
theorem keptCountsAt_eq {program : Program} (few : program.offsets.length < countLimit)
    (grid : Grid Nat) (cell : Vec) : program.keptCountsAt grid cell = program.countsAt grid cell :=
  funext fun state =>
    keptCount_of_lt (Nat.lt_of_le_of_lt (program.count_neighbors_le grid cell state) few)

/-- Cells with as many neighbours keep the same of their number. -/
theorem keptCountsAt_congr {program other : Program} {grid grid' : Grid Nat} {cell cell' : Vec}
    {state state' : Nat}
    (same : other.countsAt grid' cell' state' = program.countsAt grid cell state) :
    other.keptCountsAt grid' cell' state' = program.keptCountsAt grid cell state :=
  congrArg keptCount (Int.ofNat_inj.mp same)

/-- Counting on from what a cell has kept ends with what it keeps of the whole count. -/
theorem foldl_cellAfter {α : Type} (shows : α → Bool) (items : List α) (count : Nat) :
    items.foldl (fun kept item => if shows item then cellAfter kept else kept) (keptCount count) =
      keptCount (count + items.countP shows) := by
  induction items generalizing count with
  | nil => rw [List.foldl_nil, List.countP_nil, Nat.add_zero]
  | cons item items ih =>
      rw [List.foldl_cons]
      by_cases shown : shows item = true
      · rw [if_pos shown, cellAfter_keptCount, ih, List.countP_cons_of_pos shown, Nat.add_assoc,
          Nat.add_comm 1]
      · rw [if_neg shown, ih, List.countP_cons_of_neg shown]

/-- The grid of counts for a state shows at every cell what it keeps of the number of its
neighbours. -/
theorem countGrids_eq (program : Program) (grid : Grid Nat)
    (ranked : ∀ offset ∈ program.offsets, offset.length = grid.shape.length)
    (states : List Nat) :
    program.countGrids grid states =
      states.map fun state =>
        (state, Grid.ofFn grid.shape (program.keptCountsAt grid · state)) := by
  rw [countGrids, Boundary.neighborGrids_eq _ _ ranked]
  apply List.map_congr_left
  intro state _
  apply congrArg (Prod.mk state)
  apply Grid.ofFn_congr
  intro cell inside
  rw [keptCountsAt, neighbors, List.count_filterMap, List.foldl_map]
  simp only [Grid.getD_ofFn inside]
  have counted := foldl_cellAfter
    (fun offset => program.boundary.neighborState grid cell offset == some state) program.offsets 0
  rwa [Nat.zero_add, keptCount_zero] at counted

theorem lookup_map_self {β : Type} (f : Nat → β) {states : List Nat} {state : Nat}
    (member : state ∈ states) :
    (states.map fun state => (state, f state)).lookup state = some (f state) := by
  induction states with
  | nil => exact absurd member List.not_mem_nil
  | cons first states ih =>
      rw [List.map_cons, List.lookup_cons]
      by_cases same : state = first
      · subst same
        simp
      · rw [beq_false_of_ne same]
        exact ih ((List.mem_cons.mp member).resolve_left same)

/-- The counts of a state are found under its number. -/
theorem lookup_countGrids (program : Program) (grid : Grid Nat)
    (ranked : ∀ offset ∈ program.offsets, offset.length = grid.shape.length)
    {states : List Nat} {state : Nat} (member : state ∈ states) :
    (program.countGrids grid states).lookup state =
      some (Grid.ofFn grid.shape (program.keptCountsAt grid · state)) := by
  rw [program.countGrids_eq grid ranked]
  exact lookup_map_self (fun state => Grid.ofFn grid.shape (program.keptCountsAt grid · state))
    member

/-! ## What clauses claim -/

/-- The grid with other values where there are some. -/
def patch (grid : Grid Nat) (targets : Vec → Option Nat) : Grid Nat :=
  Grid.ofFn grid.shape fun cell => (targets cell).getD (grid.getD cell 0)

theorem patch_none (grid : Grid Nat) : patch grid (fun _ => none) = grid :=
  Grid.ofFn_getD grid 0

theorem getD_patch {grid : Grid Nat} {cell : Vec} (inside : isCell cell grid.shape)
    (targets : Vec → Option Nat) :
    (patch grid targets).getD cell 0 = (targets cell).getD (grid.getD cell 0) :=
  Grid.getD_ofFn inside _ 0

/-- The cells that are still pending after a clause with the given mask. -/
def remaining (cells mask : Grid Bool) : Grid Bool :=
  Grid.ofFn cells.shape fun cell => cells.getD cell false && !mask.spread cell false

theorem getD_remaining (cells mask : Grid Bool) (cell : Vec) :
    (remaining cells mask).getD cell false =
      (cells.getD cell false && !mask.spread cell false) := by
  by_cases inside : isCell cell cells.shape = true
  · exact Grid.getD_ofFn inside _ false
  · rw [Grid.getD_of_not_isCell inside, Bool.false_and]
    exact Grid.getD_of_not_isCell (by exact inside) false

/-- What clauses claim of the cells that are pending: for each cell the target of the clause
that claims it, if one does. -/
def claims (counts : Nat → Option (Grid Int)) (cells : Grid Bool) :
    List Clause → Except (EvaluationFault Nat) (Vec → Option Nat)
  | [] => .ok fun _ => none
  | clause :: rest =>
    if cells.count id = 0 then .ok fun _ => none
    else do
      let mask ← clause.condition.mask counts cells.shape
      let later ← claims counts (remaining cells mask) rest
      return fun cell =>
        if cells.getD cell false && mask.spread cell false then some clause.target else later cell

section Claims

variable {counts : Nat → Option (Grid Int)} {shape : List Nat} {fires : Clause → Vec → Bool}

/-- Nobody claims a cell that is not pending. -/
theorem claims_eq_none {cells : Grid Bool} {clauses : List Clause} {targets : Vec → Option Nat}
    (done : claims counts cells clauses = .ok targets) {cell : Vec}
    (idle : cells.getD cell false = false) : targets cell = none := by
  induction clauses generalizing cells targets with
  | nil =>
      obtain rfl := Except.ok.inj done
      rfl
  | cons clause rest ih =>
      rw [claims] at done
      split at done
      · obtain rfl := Except.ok.inj done
        rfl
      · rcases bind_eq_ok_iff.mp done with ⟨mask, _, done⟩
        rcases bind_eq_ok_iff.mp done with ⟨later, further, done⟩
        obtain rfl := pure_eq_ok_iff.mp done
        have none_later := ih further (by rw [getD_remaining, idle, Bool.false_and])
        simp only [idle, Bool.false_and, Bool.false_eq_true, if_false, none_later]

/-- Every cell that is claimed is claimed for the target of a clause. -/
theorem exists_of_claims {cells : Grid Bool} {clauses : List Clause}
    {targets : Vec → Option Nat} (done : claims counts cells clauses = .ok targets) {cell : Vec}
    {target : Nat} (claimed : targets cell = some target) :
    ∃ clause ∈ clauses, clause.target = target := by
  induction clauses generalizing cells targets with
  | nil =>
      obtain rfl := Except.ok.inj done
      exact absurd claimed nofun
  | cons clause rest ih =>
      rw [claims] at done
      split at done
      · obtain rfl := Except.ok.inj done
        exact absurd claimed nofun
      · rcases bind_eq_ok_iff.mp done with ⟨mask, _, done⟩
        rcases bind_eq_ok_iff.mp done with ⟨later, further, done⟩
        obtain rfl := pure_eq_ok_iff.mp done
        dsimp only at claimed
        split at claimed
        · exact ⟨clause, List.mem_cons_self, Option.some.inj claimed⟩
        · rcases ih further claimed with ⟨other, member, same⟩
          exact ⟨other, List.mem_cons_of_mem _ member, same⟩

/-- Clauses change exactly what they claim. -/
theorem claimInTurn_eq {next : Grid Nat} {cells : Grid Bool} (same : cells.shape = next.shape)
    (clauses : List Clause) :
    (claimInTurn counts ⟨next, cells⟩ clauses).map Pending.next =
      (claims counts cells clauses).map (patch next) := by
  induction clauses generalizing next cells with
  | nil => exact congrArg Except.ok (patch_none next).symm
  | cons clause rest ih =>
      rw [claimInTurn, claims]
      dsimp only
      split
      · exact congrArg Except.ok (patch_none next).symm
      · rw [claim, ← same]
        cases clause.condition.mask counts cells.shape with
        | error fault => rfl
        | ok mask =>
            apply (ih rfl).trans
            change (claims counts (remaining cells mask) rest).map _ =
              (claims counts (remaining cells mask) rest >>= _).map _
            cases further : claims counts (remaining cells mask) rest with
            | error fault => rfl
            | ok later =>
                apply congrArg Except.ok
                rw [patch, patch, Grid.shape_ofFn, ← same]
                apply Grid.ofFn_congr
                intro cell inside
                rw [Grid.getD_ofFn inside]
                dsimp only
                by_cases fires : (cells.getD cell false && mask.spread cell false) = true
                · -- a cell that has just been claimed is not claimed again
                  have settled : (remaining cells mask).getD cell false = false := by
                    rw [getD_remaining, ((Bool.and_eq_true _ _).mp fires).2, Bool.not_true,
                      Bool.and_false]
                  rw [if_pos fires, if_pos fires, claims_eq_none further settled]
                  rfl
                · rw [if_neg fires, if_neg fires]

theorem claimAll_eq {grid next : Grid Nat} (same : grid.shape = next.shape) (state : Nat)
    (clauses : List Clause) :
    claimAll counts grid next state clauses =
      (claims counts (grid.map (· == state)) clauses).map (patch next) :=
  claimInTurn_eq same clauses

private theorem getD_of_idle {cells : Grid Bool} (idle : cells.count id = 0) (cell : Vec) :
    cells.getD cell false = false := by
  by_cases inside : isCell cell cells.shape = true
  · rw [← Grid.ofFn_getD cells false, Grid.count_ofFn, List.countP_eq_zero] at idle
    exact Bool.eq_false_iff.mpr (idle cell (mem_coordinates.mpr inside))
  · exact Grid.getD_of_not_isCell inside false

private theorem spread_ofFn (fires : Vec → Bool) {cell : Vec} (inside : isCell cell shape) :
    (Grid.ofFn shape fires).spread cell false = fires cell := by
  rw [Grid.spread, Grid.shape_ofFn]
  split
  · rename_i empty
    obtain rfl := List.isEmpty_iff.mp empty
    rw [isCell, Bool.and_eq_true, beq_iff_eq, List.length_nil, List.length_eq_zero_iff] at inside
    obtain rfl := inside.1
    exact Grid.getD_ofFn rfl _ _
  · exact Grid.getD_ofFn inside _ _

/-- If it is known where each clause fires, the first that fires at a pending cell claims it.
Whether any cell is still pending makes no difference. -/
theorem claims_eq {clauses : List Clause} {cells : Grid Bool}
    (masked : ∀ clause ∈ clauses,
      clause.condition.mask counts cells.shape = .ok (Grid.ofFn cells.shape (fires clause))) :
    claims counts cells clauses = .ok fun cell =>
      if cells.getD cell false then (clauses.find? (fires · cell)).map Clause.target
      else none := by
  induction clauses generalizing cells with
  | nil => simp [claims]
  | cons clause rest ih =>
      rcases List.forall_mem_cons.mp masked with ⟨first, others⟩
      rw [claims]
      split
      · rename_i idle
        apply congrArg Except.ok
        funext cell
        rw [getD_of_idle idle, if_neg Bool.false_ne_true]
      · have later := @ih (remaining cells (Grid.ofFn cells.shape (fires clause))) others
        simp only [first, later, bind, Except.bind]
        apply congrArg Except.ok
        funext cell
        rw [getD_remaining, List.find?_cons]
        by_cases inside : isCell cell cells.shape = true
        · rw [spread_ofFn _ inside]
          cases cells.getD cell false <;> cases fires clause cell <;> simp
        · rw [Grid.getD_of_not_isCell inside]
          rfl

end Claims

/-! ## The whole step -/

theorem mem_census_iff {program : Program} {state : Nat} :
    state ∈ program.census ↔ ∃ clauses ∈ program.clauses, ∃ clause ∈ clauses,
      ∃ test ∈ clause.condition.tests, test.state = state := by
  rw [census, mem_sortedSet]
  simp only [List.mem_flatMap, List.mem_flatten, List.mem_map]
  constructor
  · rintro ⟨clause, ⟨clauses, row, member⟩, occurs⟩
    exact ⟨clauses, row, clause, member, occurs⟩
  · rintro ⟨clauses, row, clause, member, occurs⟩
    exact ⟨clause, ⟨clauses, row, member⟩, occurs⟩

/-- The mask of a clause shows where it fires. -/
theorem mask_eq {program : Program} (sound : program.Sound) {grid : Grid Nat}
    (ranked : grid.shape.length = program.rank) {clauses : List Clause}
    (row : clauses ∈ program.clauses) {clause : Clause} (member : clause ∈ clauses) :
    clause.condition.mask ((program.countGrids grid program.census).lookup ·) grid.shape =
      .ok (Grid.ofFn grid.shape fun cell => clause.fires (program.keptCountsAt grid cell)) := by
  apply Condition.maskBy_eq (sound.branching clauses row clause member)
  intro test occurs
  have found := program.lookup_countGrids grid
    (fun offset inOffsets => (sound.ranked offset inOffsets).trans ranked.symm)
    (mem_census_iff.mpr ⟨clauses, row, clause, member, test, occurs, rfl⟩)
  rw [CountTest.mask, found]
  exact congrArg Except.ok (Grid.map_ofFn ..)

/-- The grid that follows on a grid: every cell gets the follower of its state. -/
def successor (program : Program) (grid : Grid Nat) : Grid Nat :=
  Grid.ofFn grid.shape fun cell =>
    program.follower (program.keptCountsAt grid cell) (grid.getD cell 0)

theorem shape_successor (program : Program) (grid : Grid Nat) :
    (program.successor grid).shape = grid.shape := by
  rw [successor, Grid.shape_ofFn]

theorem getD_successor (program : Program) {grid : Grid Nat} {cell : Vec}
    (inside : isCell cell grid.shape) :
    (program.successor grid).getD cell 0 =
      program.follower (program.keptCountsAt grid cell) (grid.getD cell 0) :=
  Grid.getD_ofFn inside _ 0

/-- What the clauses of a state claim in a grid. -/
def claimed (program : Program) (grid : Grid Nat) (state : Nat) :
    Except (EvaluationFault Nat) (Vec → Option Nat) :=
  claims ((program.countGrids grid program.census).lookup ·) (grid.map (· == state))
    ((program.clauses[state]?).getD [])

private theorem foldlM_claimed (program : Program) {grid next : Grid Nat}
    (same : grid.shape = next.shape) {rows : List (List Clause × Nat)}
    (known : ∀ row ∈ rows, program.clauses[row.2]? = some row.1) :
    rows.foldlM (fun next row => claimAll
      ((program.countGrids grid program.census).lookup ·) grid next row.2 row.1) next =
      ((rows.map Prod.snd).mapM (program.claimed grid)).map (·.foldl patch next) := by
  induction rows generalizing next with
  | nil => rfl
  | cons row rows ih =>
      rcases List.forall_mem_cons.mp known with ⟨first, others⟩
      have own : program.claimed grid row.2 =
          claims ((program.countGrids grid program.census).lookup ·) (grid.map (· == row.2))
            row.1 := by
        rw [claimed, first, Option.getD_some]
      rw [List.foldlM_cons, List.map_cons, List.mapM_cons, claimAll_eq same, own]
      cases claims ((program.countGrids grid program.census).lookup ·) (grid.map (· == row.2))
        row.1 with
      | error fault => rfl
      | ok targets =>
          apply (@ih (patch next targets) same others).trans
          simp only [bind, Except.bind]
          cases (rows.map Prod.snd).mapM (program.claimed grid) <;> rfl

/-- Of some patches only one changes a cell, if the others do not speak of it. -/
private theorem getD_foldl_patch {grid : Grid Nat} {cell : Vec} (inside : isCell cell grid.shape)
    {rows : List (Vec → Option Nat)} {own : Nat}
    (others : ∀ i targets, i ≠ own → rows[i]? = some targets → targets cell = none) :
    (rows.foldl patch grid).getD cell 0 =
      ((rows[own]?).bind (· cell)).getD (grid.getD cell 0) := by
  induction rows generalizing grid own with
  | nil => rfl
  | cons targets rows ih =>
      have inside' : isCell cell (patch grid targets).shape := inside
      rw [List.foldl_cons]
      cases own with
      | zero =>
          have later := @ih _ inside' rows.length fun i other _ found =>
            others (i + 1) other (Nat.succ_ne_zero i) found
          rw [later, List.getElem?_eq_none (Nat.le_refl _), getD_patch inside]
          rfl
      | succ own =>
          have later := @ih _ inside' own fun i other different found =>
            others (i + 1) other (fun same => different (Nat.succ.inj same)) found
          rw [later, getD_patch inside, others 0 targets (Nat.succ_ne_zero own).symm rfl]
          rfl

private theorem shape_foldl_patch (grid : Grid Nat) (rows : List (Vec → Option Nat)) :
    (rows.foldl patch grid).shape = grid.shape := by
  induction rows generalizing grid with
  | nil => rfl
  | cons targets rows ih => exact ih (patch grid targets)

section Steps

variable {program : Program} {buffers : Buffers}

theorem claimed_of_none {grid : Grid Nat} {state : Nat}
    (missing : program.clauses[state]? = none) :
    program.claimed grid state = .ok fun _ => none := by
  rw [claimed, missing]
  rfl

private theorem nextGrid_eq_mapM (same : buffers.scratch.shape = buffers.current.shape) :
    program.nextGrid buffers =
      ((List.range program.clauses.length).mapM (program.claimed buffers.current)).map
        (·.foldl patch buffers.current) := by
  have known : ∀ row ∈ program.clauses.zipIdx, program.clauses[row.2]? = some row.1 :=
    fun row member => List.mem_zipIdx_iff_getElem?.mp member
  have stepped := program.foldlM_claimed (rfl : buffers.current.shape = _) known
  rw [List.zipIdx_map_snd, ← List.range_eq_range'] at stepped
  rw [nextGrid, Grid.overwrite_eq same]
  exact stepped

private theorem nextGrid_of_claimed (same : buffers.scratch.shape = buffers.current.shape)
    {targets : Nat → Vec → Option Nat}
    (done : ∀ state, program.claimed buffers.current state = .ok (targets state)) :
    program.nextGrid buffers =
      .ok (patch buffers.current fun cell => targets (buffers.current.getD cell 0) cell) := by
  have all : (List.range program.clauses.length).mapM (program.claimed buffers.current) =
      .ok ((List.range program.clauses.length).map targets) :=
    mapM_eq_ok_iff.mpr (List.forall₂_map_right_iff.mpr
      (List.forall₂_same.mpr fun state _ => done state))
  rw [nextGrid_eq_mapM same, all]
  apply congrArg Except.ok
  have shape_eq := shape_foldl_patch buffers.current
    ((List.range program.clauses.length).map targets)
  apply Grid.eq_ofFn shape_eq
  intro cell inside
  have others : ∀ i row, i ≠ buffers.current.getD cell 0 →
      ((List.range program.clauses.length).map targets)[i]? = some row → row cell = none := by
    intro i row different found
    rw [List.getElem?_map] at found
    rcases Option.map_eq_some_iff.mp found with ⟨j, known, rfl⟩
    rcases List.getElem?_eq_some_iff.mp known with ⟨_, rfl⟩
    rw [List.getElem_range]
    apply claims_eq_none (done i)
    rw [Grid.getD_map inside _ 0]
    exact beq_false_of_ne different.symm
  rw [Grid.get?_eq_some_getD (shape_eq ▸ inside) 0, getD_foldl_patch inside others,
    List.getElem?_map]
  by_cases covered : buffers.current.getD cell 0 < program.clauses.length
  · rw [List.getElem?_range covered]
    rfl
  · have own : program.claimed buffers.current _ = _ :=
      claimed_of_none (List.getElem?_eq_none (Nat.le_of_not_lt covered))
    have missing : (List.range program.clauses.length)[buffers.current.getD cell 0]? = none :=
      List.getElem?_eq_none (by rw [List.length_range]; exact Nat.le_of_not_lt covered)
    rw [done] at own
    simp only [missing, Except.ok.inj own]
    rfl

/-- A step succeeds exactly if it is known for every state what its clauses claim. -/
theorem exists_nextGrid_iff (same : buffers.scratch.shape = buffers.current.shape) :
    (∃ next, program.nextGrid buffers = .ok next) ↔
      ∀ state, ∃ targets, program.claimed buffers.current state = .ok targets := by
  constructor
  · rintro ⟨next, stepped⟩ state
    by_cases covered : state < program.clauses.length
    · rw [nextGrid_eq_mapM same, map_eq_ok_iff] at stepped
      rcases stepped with ⟨rows, done, _⟩
      rcases exists_of_mem_left (mapM_eq_ok_iff.mp done) (List.mem_range.mpr covered) with
        ⟨targets, _, known⟩
      exact ⟨targets, known⟩
    · exact ⟨_, claimed_of_none (List.getElem?_eq_none (Nat.le_of_not_lt covered))⟩
  · intro each
    choose targets done using each
    exact ⟨_, nextGrid_of_claimed same done⟩

/-- A step gives every cell what the clauses of its own state claim for it. -/
theorem exists_of_nextGrid {next : Grid Nat}
    (same : buffers.scratch.shape = buffers.current.shape)
    (stepped : program.nextGrid buffers = .ok next) :
    ∃ targets : Nat → Vec → Option Nat,
      (∀ state, program.claimed buffers.current state = .ok (targets state)) ∧
        next = patch buffers.current fun cell =>
          targets (buffers.current.getD cell 0) cell := by
  choose targets done using (exists_nextGrid_iff same).mp ⟨next, stepped⟩
  exact ⟨targets, done, Except.ok.inj (stepped.symm.trans (nextGrid_of_claimed same done))⟩

/-- A step gives every cell the follower of its state, whatever the scratch grid held. -/
theorem nextGrid_eq (sound : program.Sound)
    (ranked : buffers.current.shape.length = program.rank)
    (same : buffers.scratch.shape = buffers.current.shape) :
    program.nextGrid buffers = .ok (program.successor buffers.current) := by
  have masked : ∀ state : Nat, ∀ clause ∈ (program.clauses[state]?).getD ([] : List Clause),
      clause.condition.mask ((program.countGrids buffers.current program.census).lookup ·)
        buffers.current.shape =
      .ok (Grid.ofFn buffers.current.shape fun cell =>
        clause.fires (program.keptCountsAt buffers.current cell)) := by
    intro state clause member
    cases found : program.clauses[state]? with
    | none =>
        rw [found] at member
        exact absurd member List.not_mem_nil
    | some clauses =>
        rw [found] at member
        exact mask_eq sound ranked (List.mem_of_getElem? found) member
  rw [nextGrid_of_claimed same fun state => claims_eq (masked state)]
  apply congrArg Except.ok
  apply Grid.ofFn_congr
  intro cell inside
  dsimp only
  rw [Grid.getD_map inside _ 0, beq_self_eq_true, if_pos rfl, follower]
  cases program.clauses[buffers.current.getD cell 0]? <;> rfl

end Steps

end Program

end Cellular
