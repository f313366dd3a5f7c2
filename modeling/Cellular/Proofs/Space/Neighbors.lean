import Cellular.Proofs.Space.Pointwise
import Cellular.Space.Boundary

/-!
# Neighbours, one cell at a time and all at once

The two ways in which a boundary is asked for neighbours agree: the copy of a grid for
an offset shows at every cell the state of its neighbour at that offset. A framed copy
never looks outside its frame, because the frame is as wide as the widest offset.
-/

namespace Cellular

/-! ## Vectors and cells -/

theorem length_eq_of_isCell {cell : Vec} {shape : List Nat} (inside : isCell cell shape) :
    cell.length = shape.length := by
  simp only [isCell, Bool.and_eq_true, beq_iff_eq] at inside
  exact inside.1

/-- A vector that names a cell is left alone by a torus. -/
theorem wrapInto_of_isCell {shape : List Nat} {v : Vec} (inside : isCell v shape) :
    wrapInto v shape = v := by
  induction shape generalizing v with
  | nil =>
      obtain rfl := List.length_eq_zero_iff.mp (length_eq_of_isCell inside)
      rfl
  | cons n shape ih =>
      rcases v with _ | ⟨a, v⟩
      · simp [isCell] at inside
      rw [isCell_cons] at inside
      simp only [Bool.and_eq_true, decide_eq_true_eq] at inside
      rcases inside with ⟨⟨nonneg, below⟩, rest⟩
      have wrapped : wrapInto (a :: v) (n :: shape) = a % n :: wrapInto v shape := rfl
      rw [wrapped, ih rest, Int.emod_eq_of_lt nonneg below]

/-- On a torus that has cells every vector leads to a cell. -/
theorem isCell_wrapInto {shape : List Nat} {cell v : Vec} (inside : isCell cell shape)
    (same : v.length = shape.length) : isCell (wrapInto v shape) shape := by
  induction shape generalizing cell v with
  | nil =>
      obtain rfl := List.length_eq_zero_iff.mp same
      rfl
  | cons n shape ih =>
      rcases cell with _ | ⟨c, cell⟩
      · simp [isCell] at inside
      rcases v with _ | ⟨a, v⟩
      · simp at same
      rw [isCell_cons] at inside
      simp only [Bool.and_eq_true, decide_eq_true_eq] at inside
      rcases inside with ⟨⟨nonneg, below⟩, rest⟩
      have positive : (0 : Int) < n := Int.lt_of_le_of_lt nonneg below
      have wrapped : wrapInto (a :: v) (n :: shape) = a % n :: wrapInto v shape := rfl
      rw [wrapped, isCell_cons]
      simp only [Bool.and_eq_true, decide_eq_true_eq]
      exact ⟨⟨Int.emod_nonneg a (Int.ne_of_gt positive), Int.emod_lt_of_pos a positive⟩,
        ih rest (Nat.succ.inj same)⟩

private theorem foldl_max_le (items : List Nat) (start : Nat) :
    start ≤ items.foldl max start ∧ ∀ n ∈ items, n ≤ items.foldl max start := by
  induction items generalizing start with
  | nil => simp
  | cons n items ih =>
      rcases ih (max start n) with ⟨base, members⟩
      constructor
      · exact Nat.le_trans (Nat.le_max_left start n) base
      · intro m member
        rcases List.mem_cons.mp member with rfl | member
        · exact Nat.le_trans (Nat.le_max_right start m) base
        · exact members m member

namespace Vec

theorem natAbs_le_chebyshev {v : Vec} {c : Int} (member : c ∈ v) : c.natAbs ≤ v.chebyshev :=
  (foldl_max_le (v.map Int.natAbs) 0).2 _ (List.mem_map_of_mem member)

end Vec

theorem Boundary.chebyshev_le_frameWidth {offsets : List Vec} {offset : Vec}
    (member : offset ∈ offsets) : offset.chebyshev ≤ frameWidth offsets :=
  (foldl_max_le (offsets.map Vec.chebyshev) 0).2 _ (List.mem_map_of_mem member)

/-! ## Windows into a framed grid -/

namespace Framed

variable {α : Type}

/-- A window whose offset is not wider than the frame stays inside the framed grid, and
taking the frame away again leads to the cell at the offset. -/
theorem corner_add {width : Nat} {offset cell : Vec} {shape : List Nat}
    (same : offset.length = shape.length) (narrow : ∀ c ∈ offset, c.natAbs ≤ width)
    (inside : isCell cell shape) :
    isCell (Vec.add (corner width offset shape) cell) (shape.map (· + 2 * width)) ∧
      (Vec.add (corner width offset shape) cell).map (· - (width : Int)) =
        Vec.add cell offset := by
  induction shape generalizing offset cell with
  | nil =>
      have offset_nil : offset = [] := List.length_eq_zero_iff.mp same
      have cell_nil : cell = [] := List.length_eq_zero_iff.mp (length_eq_of_isCell inside)
      subst offset_nil cell_nil
      exact ⟨rfl, rfl⟩
  | cons n shape ih =>
      rcases offset with _ | ⟨o, offset⟩
      · simp at same
      rcases cell with _ | ⟨c, cell⟩
      · simp [isCell] at inside
      rw [isCell_cons] at inside
      simp only [Bool.and_eq_true, decide_eq_true_eq] at inside
      rcases inside with ⟨⟨nonneg, below⟩, rest⟩
      have bound := narrow o List.mem_cons_self
      obtain ⟨stays, moved⟩ := ih (Nat.succ.inj same)
        (fun c member => narrow c (List.mem_cons_of_mem o member)) rest
      constructor
      · simp only [corner, Vec.add, List.zipWith_cons_cons, List.map_cons, isCell_cons,
          Bool.and_eq_true, decide_eq_true_eq]
        exact ⟨⟨by omega, by omega⟩, stays⟩
      · simp only [corner, Vec.add, List.zipWith_cons_cons, List.map_cons, List.cons.injEq]
        exact ⟨by omega, moved⟩

/-- A window shows at every cell what lies an offset away, or the frame. -/
theorem window_eq_ofFn (framed : Framed α) {offset : Vec}
    (same : offset.length = framed.inner.shape.length)
    (narrow : ∀ c ∈ offset, c.natAbs ≤ framed.width) :
    framed.window offset =
      Grid.ofFn framed.inner.shape fun cell =>
        framed.inner.getD (Vec.add cell offset) framed.frame := by
  simp only [window, opening_eq framed.width same]
  apply Grid.ofFn_congr
  intro cell inside
  rcases corner_add same narrow inside with ⟨stays, moved⟩
  rw [Framed.get?, shape, if_pos stays, moved, Option.getD_some]

end Framed

/-! ## Copies of a grid -/

namespace Boundary

variable {σ : Type}

theorem getD_map_some_frame (boundary : Boundary σ) (grid : Grid σ) (cell offset : Vec)
    (bounded : boundary ≠ wrap) :
    (grid.map some).getD (Vec.add cell offset) boundary.frame =
      boundary.neighborState grid cell offset := by
  cases boundary with
  | wrap => exact absurd rfl bounded
  | void =>
      simp only [Grid.getD, Grid.get?_map, frame, neighborState]
      cases grid.get? (Vec.add cell offset) <;> rfl
  | static state =>
      simp only [Grid.getD, Grid.get?_map, frame, neighborState]
      cases grid.get? (Vec.add cell offset) <;> rfl

private theorem window_eq_neighborState (boundary : Boundary σ) (grid : Grid σ)
    {offsets : List Vec} (bounded : boundary ≠ wrap) {offset : Vec} (member : offset ∈ offsets)
    (same : offset.length = grid.shape.length) :
    (⟨grid.map some, frameWidth offsets, boundary.frame⟩ : Framed (Option σ)).window offset =
      Grid.ofFn grid.shape (boundary.neighborState grid · offset) := by
  have narrow : ∀ c ∈ offset, c.natAbs ≤ frameWidth offsets := fun c inOffset =>
    Nat.le_trans (Vec.natAbs_le_chebyshev inOffset) (chebyshev_le_frameWidth member)
  rw [Framed.window_eq_ofFn _ (by exact same) narrow]
  apply Grid.ofFn_congr
  intro cell _
  exact getD_map_some_frame boundary grid cell offset bounded

/-- On the grid no boundary makes a difference. -/
theorem neighborState_of_isCell (boundary : Boundary σ) {grid : Grid σ} {cell offset : Vec}
    (inside : isCell (Vec.add cell offset) grid.shape) :
    boundary.neighborState grid cell offset = grid.get? (Vec.add cell offset) := by
  cases boundary with
  | void => rfl
  | wrap => rw [neighborState, wrapInto_of_isCell inside]
  | static state => rw [neighborState, Grid.get?_eq_some_getD inside]

theorem turn?_eq_some {rank : Nat} {offset : Vec} (same : offset.length = rank) :
    turn? rank offset = some offset := by
  simp only [turn?, same, if_true]

private theorem roll_eq_neighborState (grid : Grid σ) (offset : Vec) :
    (grid.map some).roll offset none =
      Grid.ofFn grid.shape (wrap.neighborState grid · offset) := by
  apply Grid.ofFn_congr
  intro cell _
  simp only [Grid.getD, Grid.get?_map, neighborState]
  change ((grid.get? (wrapInto (Vec.add cell offset) grid.shape)).map some).getD none = _
  cases grid.get? (wrapInto (Vec.add cell offset) grid.shape) <;> rfl

/-- The copies of a grid show at every cell the state of its neighbour at each offset. -/
theorem neighborGrids_eq (boundary : Boundary σ) (grid : Grid σ) {offsets : List Vec}
    (ranked : ∀ offset ∈ offsets, offset.length = grid.shape.length) :
    boundary.neighborGrids grid offsets =
      offsets.map fun offset => Grid.ofFn grid.shape (boundary.neighborState grid · offset) := by
  cases boundary with
  | wrap =>
      apply List.map_congr_left
      intro offset member
      rw [turn?_eq_some (ranked offset member), Option.getD_some]
      exact roll_eq_neighborState grid offset
  | void =>
      apply List.map_congr_left
      intro offset member
      exact window_eq_neighborState void grid (by simp) member (ranked offset member)
  | static state =>
      apply List.map_congr_left
      intro offset member
      exact window_eq_neighborState (static state) grid (by simp) member (ranked offset member)

end Boundary

end Cellular
