import Cellular.Space.Grid

/-!
# Nested rows

A grid may be given as nested rows: a grid without axes is a single value, and any other
grid is the row of its parts. Rows that are not all of one shape make no grid.
-/

namespace Cellular

/-- A value, or a row of nested rows. -/
inductive Nested (α : Type) where
  | cell (value : α)
  | row (items : List (Nested α))

namespace Nested

variable {α : Type}

mutual

/-- The shape of the grid that nested rows make, if they make one. -/
def shape? : Nested α → Option (List Nat)
  | .cell _ => some []
  | .row items => rowShape? items

/-- The shape of a row of the given items. A row of nothing is one axis without extent. -/
def rowShape? : List (Nested α) → Option (List Nat)
  | [] => some [0]
  | [item] => (shape? item).map (1 :: ·)
  | item :: items => do
    match ← shape? item, ← rowShape? items with
    | shape, n :: rest => if rest = shape then some ((n + 1) :: rest) else none
    | _, [] => none

end

mutual

/-- The values in row-major order. -/
def values : Nested α → List α
  | .cell value => [value]
  | .row items => rowValues items

/-- The values of the items of a row. -/
def rowValues : List (Nested α) → List α
  | [] => []
  | item :: items => values item ++ rowValues items

end

/-- The grid that nested rows make, if they make one. -/
def grid? (rows : Nested α) : Option (Grid α) := do
  let shape ← rows.shape?
  let cells := rows.values.toArray
  if complete : cells.size = cellCount shape then some ⟨shape, cells, complete⟩ else none

end Nested

end Cellular
