import Cellular.Space.Frame

/-!
# Boundaries

A boundary says what lies beyond the edge of a grid: nothing at all, the opposite
edge, or one fixed state. The neighbour of a cell at an offset can be looked up for
one cell, or for all cells at once as a shifted copy of the grid. `none` stands for
a neighbour that does not exist.
-/

namespace Cellular

/-- What lies beyond the edge of a grid. -/
inductive Boundary (σ : Type) where
  | void
  | wrap
  | static (state : σ)
deriving DecidableEq, Repr

namespace Boundary

variable {σ : Type}

/-- The boundary in a sentence. -/
def description [ToString σ] : Boundary σ → String
  | void => "void boundary"
  | wrap => "wrap boundary"
  | static state => "static boundary of state " ++ toString state

/-- The boundary as a constructed value. -/
def construction [ToString σ] : Boundary σ → String
  | void => "VoidBoundary()"
  | wrap => "WrapBoundary()"
  | static state => "StaticBoundary(" ++ toString state ++ ")"

/-- The state that a padded grid shows beyond its edge. -/
def frame : Boundary σ → Option σ
  | void | wrap => none
  | static state => some state

/-! ## One cell at a time -/

/-- The state of the neighbour of a cell at an offset. -/
def neighborState (boundary : Boundary σ) (grid : Grid σ) (cell offset : Vec) : Option σ :=
  let target := Vec.add cell offset
  match boundary with
  | wrap => grid.get? (wrapInto target grid.shape)
  | void => grid.get? target
  | static state => some (grid.getD target state)

/-! ## All cells at once -/

/-- How far every axis of a torus is turned by an offset. A single coordinate turns all
axes alike, and all coordinates together turn a single axis. -/
def turn? (rank : Nat) (offset : Vec) : Option Vec :=
  if offset.length = rank then some offset
  else if rank = 1 then some [offset.foldr (· + ·) 0]
  else match offset with
    | [amount] => some (List.replicate rank amount)
    | _ => none

/-- The width of a frame that is wide enough for every offset. -/
def frameWidth (offsets : List Vec) : Nat :=
  (offsets.map Vec.chebyshev).foldl max 0

/-- For each offset the grid that shows at every cell the state of its neighbour
there. A torus is turned; otherwise the grid is framed once, widely enough for
every offset, and each copy is a window into the framed grid. -/
def neighborGrids (boundary : Boundary σ) (grid : Grid σ) (offsets : List Vec) :
    List (Grid (Option σ)) :=
  match boundary with
  | wrap => offsets.map fun offset =>
    (grid.map some).roll ((turn? grid.shape.length offset).getD offset) none
  | void | static _ =>
    let framed : Framed (Option σ) := ⟨grid.map some, frameWidth offsets, boundary.frame⟩
    offsets.map framed.window

end Boundary

end Cellular
