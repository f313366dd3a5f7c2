import Cellular.Proofs.Space.Neighbors
import Cellular.Space.Query
import Mathlib.Data.List.Forall2

/-!
# Copies of a grid

Whatever the offsets are, there is one copy of a grid for each of them, and it shows at
every cell the neighbour that the boundary gives for this cell alone. A framed grid is wide
enough for all windows into it. On a torus each copy is the grid turned by the opposite
offset, since what a cell is to see has to be brought to it.
-/

namespace Cellular

/-! ## Turning back -/

/-- On a torus an offset undoes its opposite. -/
theorem wrapInto_add_neg {shape : List Nat} {cell offset : Vec} (inside : isCell cell shape)
    (same : offset.length = shape.length) :
    wrapInto (Vec.add (wrapInto (Vec.add cell (Vec.neg offset)) shape) offset) shape = cell := by
  induction shape generalizing cell offset with
  | nil =>
      obtain rfl := List.length_eq_zero_iff.mp (length_eq_of_isCell inside)
      obtain rfl := List.length_eq_zero_iff.mp same
      rfl
  | cons n shape ih =>
      rcases offset with _ | ⟨o, offset⟩
      · simp at same
      rcases cell with _ | ⟨c, cell⟩
      · simp [isCell] at inside
      rw [isCell_cons] at inside
      simp only [Bool.and_eq_true, decide_eq_true_eq] at inside
      rcases inside with ⟨⟨nonneg, below⟩, rest⟩
      have coordinate : ((c + -o) % n + o) % n = c := by
        rw [Int.emod_add_emod, Int.neg_add_cancel_right, Int.emod_eq_of_lt nonneg below]
      have step : wrapInto (Vec.add (wrapInto (Vec.add (c :: cell) (Vec.neg (o :: offset)))
            (n :: shape)) (o :: offset)) (n :: shape) =
          ((c + -o) % n + o) % n ::
            wrapInto (Vec.add (wrapInto (Vec.add cell (Vec.neg offset)) shape) offset) shape :=
        rfl
      rw [step, coordinate, ih rest (Nat.succ.inj same)]

/-- Turning a grid moves the value of every cell by the opposite of the offset. -/
theorem Grid.get?_roll {α : Type} {grid : Grid α} {cell offset : Vec} (beyond : α)
    (inside : isCell cell grid.shape) (same : offset.length = grid.shape.length) :
    (grid.roll offset beyond).get? (wrapInto (Vec.add cell (Vec.neg offset)) grid.shape) =
      grid.get? cell := by
  have opposite : (Vec.add cell (Vec.neg offset)).length = grid.shape.length := by
    rw [Vec.add, List.length_zipWith, Vec.neg, List.length_map, same,
      length_eq_of_isCell inside, Nat.min_self]
  rw [roll, get?_ofFn_of_isCell (isCell_wrapInto inside opposite), wrapInto_add_neg inside same,
    get?_eq_some_getD inside]

namespace Boundary

variable {σ : Type}

/-! ## One copy for each offset -/

/-- There is one copy for each offset, in the same order. It has the shape of the grid and
shows at every cell the state of its neighbour. -/
theorem neighborGrids_forall₂ (boundary : Boundary σ) (grid : Grid σ) {offsets : List Vec}
    (ranked : ∀ offset ∈ offsets, offset.length = grid.shape.length) :
    List.Forall₂ (fun offset (copy : Grid (Option σ)) => copy.shape = grid.shape ∧
      ∀ cell, isCell cell grid.shape →
        copy.get? cell = some (boundary.neighborState grid cell offset))
      offsets (boundary.neighborGrids grid offsets) := by
  rw [neighborGrids_eq boundary grid ranked, List.forall₂_map_right_iff, List.forall₂_same]
  intro offset _
  constructor
  · rfl
  · exact fun cell inside => Grid.get?_ofFn_of_isCell inside _

/-- The window of every offset lies inside the frame. -/
theorem isCell_corner_add {grid : Grid σ} {offsets : List Vec} {offset cell : Vec}
    (member : offset ∈ offsets) (same : offset.length = grid.shape.length)
    (inside : isCell cell grid.shape) :
    isCell (Vec.add (Framed.corner (frameWidth offsets) offset grid.shape) cell)
      (grid.shape.map (· + 2 * frameWidth offsets)) := by
  have narrow : ∀ c ∈ offset, c.natAbs ≤ frameWidth offsets := fun c inOffset =>
    Nat.le_trans (Vec.natAbs_le_chebyshev inOffset) (chebyshev_le_frameWidth member)
  exact (Framed.corner_add same narrow inside).1

/-- Where there is room, the copies that are asked for are these. -/
theorem copies_eq_ok {memory : Nat} {cell : σ → Except CellFault Int} {boundary : Boundary σ}
    {stored : Boundary Int} {grid : Grid Int} {offsets : List Vec}
    (ranked : ∀ offset ∈ offsets, offset.length = grid.shape.length) (axes : grid.shape ≠ [])
    (room : boundary.roomFault? memory grid.shape offsets = none)
    (fits : boundary.ofCells cell = .ok stored) :
    boundary.copies memory cell grid offsets = .ok (stored.neighborGrids grid offsets) := by
  have turns : (offsets.find? fun offset => decide (grid.shape.length = 0) ||
      (turn? grid.shape.length offset).isNone) = none := by
    rw [List.find?_eq_none]
    intro offset member
    simp [turn?_eq_some (ranked offset member), axes]
  unfold copies
  cases offsets with
  | nil => cases stored <;> rfl
  | cons offset rest =>
      cases boundary <;>
        simp only [turns, room, fits, bind, Except.bind, Except.mapError] <;> rfl

/-- Neighbours all at once are neighbours one by one. For every offset there is one copy of
the grid, which shows at every cell the state that the boundary gives as its neighbour, and
nothing is read outside the framed or turned grid. -/
theorem neighborGrids_eq_neighborState (boundary : Boundary σ) (grid : Grid σ)
    {offsets : List Vec} (ranked : ∀ offset ∈ offsets, offset.length = grid.shape.length) :
    List.Forall₂ (fun offset (copy : Grid (Option σ)) => copy.shape = grid.shape ∧
      ∀ cell, isCell cell grid.shape →
        copy.get? cell = some (boundary.neighborState grid cell offset))
      offsets (boundary.neighborGrids grid offsets) ∧
    ∀ offset ∈ offsets, ∀ cell, isCell cell grid.shape →
      -- the window of an offset lies inside the framed grid
      isCell (Vec.add (Framed.corner (frameWidth offsets) offset grid.shape) cell)
        (⟨grid.map some, frameWidth offsets, boundary.frame⟩ : Framed (Option σ)).shape ∧
      -- on a torus an offset leads to a cell
      isCell (wrapInto (Vec.add cell offset) grid.shape) grid.shape ∧
      -- and turning the torus moves what is there by the opposite offset
      ((grid.map some).roll offset none).get?
        (wrapInto (Vec.add cell (Vec.neg offset)) grid.shape) = (grid.map some).get? cell := by
  constructor
  · exact neighborGrids_forall₂ boundary grid ranked
  · intro offset member cell inside
    have same := ranked offset member
    have target : (Vec.add cell offset).length = grid.shape.length := by
      rw [Vec.add, List.length_zipWith, same, length_eq_of_isCell inside, Nat.min_self]
    exact ⟨isCell_corner_add member same inside, isCell_wrapInto inside target,
      Grid.get?_roll none inside same⟩

/-- Two cells, and offsets that stay, repeat and lead far away. -/
theorem neighborGrids_eq_neighborState_pair : ∃ (grid : Grid Nat) (offsets : List Vec),
    grid.shape = [1, 2] ∧ offsets = [[0, 0], [0, -1], [0, -1], [5, 3]] ∧
      List.Forall₂ (fun offset (copy : Grid (Option Nat)) => copy.shape = grid.shape ∧
        ∀ cell, isCell cell grid.shape →
          copy.get? cell = some ((static 7).neighborState grid cell offset))
        offsets ((static 7).neighborGrids grid offsets) := by
  have ranked : ∀ offset ∈ ([[0, 0], [0, -1], [0, -1], [5, 3]] : List Vec),
      offset.length = (Grid.ofFn [1, 2] fun cell => rowIndex cell [1, 2]).shape.length := by
    simp
  exact ⟨_, _, rfl, rfl, (neighborGrids_eq_neighborState (static 7) _ ranked).1⟩

end Boundary

end Cellular
