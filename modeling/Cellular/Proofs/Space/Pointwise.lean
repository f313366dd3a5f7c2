import Cellular.Space.RowMajor

/-!
# Grids as functions of the cell

A grid is the function that it shows: every grid is `Grid.ofFn` of what can be read at
its cells, and each operation on grids is the operation on functions, cell by cell. Two
functions make the same grid exactly if they agree on its cells; what they are beyond
the grid does not matter.
-/

namespace Cellular.Grid

variable {α β γ : Type}

/-- A function makes the grid that shows it at every cell. -/
theorem eq_ofFn {grid : Grid α} {shape : List Nat} {value : Vec → α}
    (shape_eq : grid.shape = shape)
    (shows : ∀ cell, isCell cell shape → grid.get? cell = some (value cell)) :
    grid = ofFn shape value := by
  apply ext_get? shape_eq
  intro cell inside
  rw [shape_eq] at inside
  rw [shows cell inside, get?_ofFn, if_pos inside]

theorem ofFn_congr {shape : List Nat} {first second : Vec → α}
    (agree : ∀ cell, isCell cell shape → first cell = second cell) :
    ofFn shape first = ofFn shape second := by
  apply eq_ofFn (by rfl)
  intro cell inside
  rw [get?_ofFn, if_pos inside, agree cell inside]

theorem get?_ofFn_of_isCell {shape : List Nat} {cell : Vec} (inside : isCell cell shape)
    (value : Vec → α) : (ofFn shape value).get? cell = some (value cell) := by
  rw [get?_ofFn, if_pos inside]

theorem getD_ofFn {shape : List Nat} {cell : Vec} (inside : isCell cell shape)
    (value : Vec → α) (beyond : α) : (ofFn shape value).getD cell beyond = value cell := by
  rw [getD, get?_ofFn_of_isCell inside, Option.getD_some]

theorem get?_eq_none {grid : Grid α} {cell : Vec} (outside : ¬isCell cell grid.shape) :
    grid.get? cell = none := by
  rw [get?, if_neg outside]

theorem exists_get?_eq_some {grid : Grid α} {cell : Vec} (inside : isCell cell grid.shape) :
    ∃ value, grid.get? cell = some value := by
  rw [← Option.isSome_iff_exists, isSome_get?]
  exact inside

/-- At a cell the value beyond the grid does not count. -/
theorem get?_eq_some_getD {grid : Grid α} {cell : Vec} (inside : isCell cell grid.shape)
    (beyond : α) : grid.get? cell = some (grid.getD cell beyond) := by
  rcases exists_get?_eq_some inside with ⟨value, found⟩
  rw [getD, found, Option.getD_some]

theorem getD_of_not_isCell {grid : Grid α} {cell : Vec} (outside : ¬isCell cell grid.shape)
    (beyond : α) : grid.getD cell beyond = beyond := by
  rw [getD, get?_eq_none outside, Option.getD_none]

theorem ofFn_getD (grid : Grid α) (beyond : α) :
    ofFn grid.shape (grid.getD · beyond) = grid :=
  (eq_ofFn rfl fun _ inside => get?_eq_some_getD inside beyond).symm

/-! ## Operations cell by cell -/

theorem fill_eq_ofFn (shape : List Nat) (value : α) :
    fill shape value = ofFn shape fun _ => value := by
  apply eq_ofFn (by rfl)
  intro cell inside
  rw [get?_fill, if_pos inside]

theorem map_ofFn (shape : List Nat) (value : Vec → α) (f : α → β) :
    (ofFn shape value).map f = ofFn shape fun cell => f (value cell) := by
  apply eq_ofFn (by rfl)
  intro cell inside
  rw [get?_map, get?_ofFn_of_isCell inside, Option.map_some]

theorem map_eq_ofFn (grid : Grid α) (f : α → β) (beyond : α) :
    grid.map f = ofFn grid.shape fun cell => f (grid.getD cell beyond) := by
  calc
    grid.map f = (ofFn grid.shape (grid.getD · beyond)).map f := by rw [ofFn_getD]
    _ = ofFn grid.shape fun cell => f (grid.getD cell beyond) := map_ofFn ..

theorem map_map (f : α → β) (g : β → γ) (grid : Grid α) :
    (grid.map f).map g = grid.map fun a => g (f a) := by
  apply ext_get? (by rfl)
  intro cell _
  rw [get?_map, get?_map, get?_map, Option.map_map]
  rfl

theorem getD_map {grid : Grid α} {cell : Vec} (inside : isCell cell grid.shape) (f : α → β)
    (beyond : α) (beyond' : β) : (grid.map f).getD cell beyond' = f (grid.getD cell beyond) := by
  rw [map_eq_ofFn grid f beyond, getD_ofFn inside]

theorem map_congr {grid : Grid α} {f g : α → β} {beyond : α}
    (agree : ∀ cell, isCell cell grid.shape →
      f (grid.getD cell beyond) = g (grid.getD cell beyond)) : grid.map f = grid.map g := by
  rw [map_eq_ofFn grid f beyond, map_eq_ofFn grid g beyond]
  exact ofFn_congr agree

theorem get?_zipWith (f : α → β → γ) {first : Grid α} {second : Grid β}
    (same : first.shape = second.shape) (cell : Vec) :
    (first.zipWith f second same).get? cell =
      (first.get? cell).bind fun a => (second.get? cell).map (f a) := by
  by_cases inside : isCell cell first.shape
  · have inside' : isCell cell second.shape := same ▸ inside
    have bound := rowIndex_lt inside
    have bound' := rowIndex_lt inside'
    rw [← first.size_eq] at bound
    rw [← second.size_eq] at bound'
    rw [← same] at bound'
    simp only [get?, zipWith, inside, if_true, ← same]
    rw [Array.getElem?_eq_getElem bound, Array.getElem?_eq_getElem bound', Array.getElem?_eq_getElem
      (by rw [Array.size_zipWith]; exact Nat.lt_min.mpr ⟨bound, bound'⟩), Array.getElem_zipWith]
    rfl
  · rw [get?_eq_none inside, get?_eq_none (by exact inside)]
    rfl

theorem zipWith_ofFn (shape : List Nat) (f : α → β → γ) (first : Vec → α) (second : Vec → β) :
    (ofFn shape first).zipWith f (ofFn shape second) (by rfl) =
      ofFn shape fun cell => f (first cell) (second cell) := by
  apply eq_ofFn (by rfl)
  intro cell inside
  apply (get?_zipWith ..).trans
  rw [get?_ofFn_of_isCell inside, get?_ofFn_of_isCell inside]
  rfl

/-- A grid that is overwritten by a grid of its shape is that grid, whatever it held. -/
theorem overwrite_eq {grid source : Grid α} (same : grid.shape = source.shape) :
    grid.overwrite source = source := by
  rw [overwrite, dif_pos same]
  apply ext_get? (by exact same)
  intro cell inside
  rcases exists_get?_eq_some (show isCell cell grid.shape from inside) with ⟨value, found⟩
  rw [get?_zipWith, found, Option.bind_some, Option.map_id']

theorem count_ofFn (shape : List Nat) (value : Vec → α) (p : α → Bool) :
    (ofFn shape value).count p = (coordinates shape).countP fun cell => p (value cell) := by
  simp only [count, ofFn, List.countP_toArray, List.countP_map]
  rfl

end Cellular.Grid
