import Cellular.Space.Grid

/-!
# Row-major order

The cells of a shape and the places of an array are the same thing seen twice: the
list of all cells has every cell at its place, and no two cells share one. So a grid
is known when it is known at every cell, and each operation on grids is described by
what can be read afterwards.
-/

namespace Cellular

/-! ## Places -/

theorem getElem?_flatMap_range {α : Type} (f : Nat → List α) (width : Nat)
    (length_eq : ∀ i, (f i).length = width) {n i j : Nat} (row : i < n) (column : j < width) :
    ((List.range n).flatMap f)[i * width + j]? = (f i)[j]? := by
  induction n with
  | zero => exact absurd row (Nat.not_lt_zero i)
  | succ n ih =>
    have before : ((List.range n).flatMap f).length = n * width := by
      simp [List.length_flatMap, length_eq, List.map_const']
    rw [List.range_succ, List.flatMap_append, List.flatMap_singleton]
    by_cases earlier : i < n
    · have inside : i * width + j < n * width :=
        calc i * width + j < i * width + width := Nat.add_lt_add_left column _
          _ = (i + 1) * width := (Nat.succ_mul i width).symm
          _ ≤ n * width := Nat.mul_le_mul_right width earlier
      rw [List.getElem?_append_left (by rw [before]; exact inside)]
      exact ih earlier
    · have last : i = n := by omega
      subst last
      rw [List.getElem?_append_right (by rw [before]; exact Nat.le_add_right ..), before,
        Nat.add_sub_cancel_left]

theorem isCell_cons (c : Int) (cell : Vec) (n : Nat) (shape : List Nat) :
    isCell (c :: cell) (n :: shape) = (decide (0 ≤ c) && decide (c < n) && isCell cell shape) := by
  simp only [isCell, inBounds, List.length_cons]
  cases decide (0 ≤ c) <;> cases decide (c < n) <;>
    simp

theorem rowIndex_lt {cell : Vec} {shape : List Nat} (inside : isCell cell shape) :
    rowIndex cell shape < cellCount shape := by
  induction shape generalizing cell with
  | nil => cases cell with
    | nil => exact Nat.zero_lt_one
    | cons c cell => simp [isCell] at inside
  | cons n shape ih => cases cell with
    | nil => simp [isCell] at inside
    | cons c cell =>
      simp only [isCell_cons, Bool.and_eq_true, decide_eq_true_eq] at inside
      have row : c.toNat + 1 ≤ n := by omega
      calc c.toNat * cellCount shape + rowIndex cell shape
          < c.toNat * cellCount shape + cellCount shape := Nat.add_lt_add_left (ih inside.2) _
        _ = (c.toNat + 1) * cellCount shape := (Nat.succ_mul ..).symm
        _ ≤ n * cellCount shape := Nat.mul_le_mul_right _ row

theorem coordinates_rowIndex {cell : Vec} {shape : List Nat} (inside : isCell cell shape) :
    (coordinates shape)[rowIndex cell shape]? = some cell := by
  induction shape generalizing cell with
  | nil => cases cell with
    | nil => rfl
    | cons c cell => simp [isCell] at inside
  | cons n shape ih => cases cell with
    | nil => simp [isCell] at inside
    | cons c cell =>
      simp only [isCell_cons, Bool.and_eq_true, decide_eq_true_eq] at inside
      obtain ⟨⟨nonneg, below⟩, rest⟩ := inside
      rw [coordinates, rowIndex, getElem?_flatMap_range _ (cellCount shape)
        (by simp [length_coordinates]) (by omega) (rowIndex_lt rest), List.getElem?_map, ih rest,
        Option.map_some, Int.toNat_of_nonneg nonneg]

theorem mem_coordinates {cell : Vec} {shape : List Nat} :
    cell ∈ coordinates shape ↔ isCell cell shape := by
  constructor
  · induction shape generalizing cell with
    | nil => intro member; simp [coordinates] at member; subst member; rfl
    | cons n shape ih =>
      intro member
      simp only [coordinates, List.mem_flatMap, List.mem_range, List.mem_map] at member
      obtain ⟨i, row, rest, restMember, rfl⟩ := member
      simp [isCell_cons, ih restMember, row]
  · intro inside
    exact List.mem_of_getElem? (coordinates_rowIndex inside)

theorem flatMap_range_add (n width : Nat) :
    (List.range n).flatMap (fun i => (List.range width).map (i * width + ·)) =
      List.range (n * width) := by
  induction n with
  | zero => simp
  | succ n ih =>
    rw [List.range_succ, List.flatMap_append, ih, List.flatMap_singleton, Nat.succ_mul,
      List.range_add]

/-- The cells come in the order of their places. -/
theorem map_rowIndex_coordinates (shape : List Nat) :
    (coordinates shape).map (rowIndex · shape) = List.range (cellCount shape) := by
  induction shape with
  | nil => rfl
  | cons n shape ih =>
    rw [cellCount, List.foldr_cons, ← cellCount, ← flatMap_range_add, ← ih]
    simp [coordinates, rowIndex, List.map_flatMap, Function.comp_def]

theorem rowIndex_inj {first second : Vec} {shape : List Nat} (inside : isCell first shape)
    (inside' : isCell second shape) (same : rowIndex first shape = rowIndex second shape) :
    first = second := by
  have := coordinates_rowIndex inside
  rw [same, coordinates_rowIndex inside'] at this
  exact (Option.some.inj this).symm

/-! ## Reading -/

namespace Grid

variable {α β : Type}

@[simp]
theorem shape_ofFn (shape : List Nat) (value : Vec → α) : (ofFn shape value).shape = shape :=
  rfl

theorem get?_ofFn (shape : List Nat) (value : Vec → α) (cell : Vec) :
    (ofFn shape value).get? cell = if isCell cell shape then some (value cell) else none := by
  unfold get?
  split
  · rename_i inside
    simp only [shape_ofFn] at inside
    simp [ofFn, inside, coordinates_rowIndex inside]
  · rename_i outside
    simp only [shape_ofFn] at outside
    simp [outside]

theorem get?_fill (shape : List Nat) (value : α) (cell : Vec) :
    (fill shape value).get? cell = if isCell cell shape then some value else none := by
  by_cases inside : isCell cell shape
  · simp [get?, fill, inside, rowIndex_lt inside]
  · simp [get?, fill, inside]

theorem get?_map (f : α → β) (grid : Grid α) (cell : Vec) :
    (grid.map f).get? cell = (grid.get? cell).map f := by
  by_cases inside : isCell cell grid.shape <;> simp [get?, map, inside]

theorem isSome_get? (grid : Grid α) (cell : Vec) :
    (grid.get? cell).isSome = isCell cell grid.shape := by
  unfold get?
  split
  · rename_i inside
    have bound := rowIndex_lt inside
    rw [← grid.size_eq] at bound
    simp [inside, bound]
  · rename_i outside
    simp [outside]

theorem get?_set (grid : Grid α) {cell : Vec} (inside : isCell cell grid.shape) (value : α)
    (other : Vec) :
    (grid.set cell value).get? other = if other = cell then some value else grid.get? other := by
  have bound := rowIndex_lt inside
  rw [← grid.size_eq] at bound
  by_cases same : other = cell
  · subst same
    simp [get?, set, inside, bound]
  · by_cases inside' : isCell other grid.shape
    · have apart : rowIndex cell grid.shape ≠ rowIndex other grid.shape :=
        fun equal => same (rowIndex_inj inside inside' equal).symm
      simp [get?, set, inside, inside', same, Array.getElem?_setIfInBounds_ne apart]
    · simp [get?, set, inside', same]

/-- Grids of one shape with the same value at every cell are equal. -/
theorem ext_get? {first second : Grid α} (shape_eq : first.shape = second.shape)
    (same : ∀ cell, isCell cell first.shape → first.get? cell = second.get? cell) :
    first = second := by
  obtain ⟨shape, cells, size_eq⟩ := first
  obtain ⟨_, others, others_eq⟩ := second
  subst shape_eq
  congr 1
  apply Array.ext (size_eq.trans others_eq.symm)
  intro i below within
  have place : i < (coordinates shape).length := by
    rw [length_coordinates, ← size_eq]
    exact below
  have inside := mem_coordinates.mp (List.getElem_mem place)
  have index : rowIndex (coordinates shape)[i] shape = i := by
    have := congrArg (·[i]?) (map_rowIndex_coordinates shape)
    simpa [List.getElem?_range, place, ← size_eq, below] using this
  have := same _ inside
  simpa [get?, inside, index, below, within] using this

end Grid

end Cellular
