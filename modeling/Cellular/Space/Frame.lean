import Cellular.Space.Grid

/-!
# Framed grids

A framed grid is a grid inside a frame of one width, which shows the same value
everywhere. Nothing of the frame is stored: a cell of the framed grid is a cell of the
grid moved by the width, or else it lies in the frame.

An offset opens a window into a framed grid. Along the axes that the offset speaks of
the window is as long as the grid and lies that far from it; along the others it shows
the framed grid from end to end. So a window that speaks of every axis has the shape of
the grid.
-/

namespace Cellular

/-- A grid inside a frame. -/
structure Framed (α : Type) where
  inner : Grid α
  width : Nat
  frame : α

namespace Framed

variable {α : Type}

/-- The shape of the grid together with its frame. -/
def shape (framed : Framed α) : List Nat :=
  framed.inner.shape.map (· + 2 * framed.width)

/-- The value at a cell, if the vector names one. -/
def get? (framed : Framed α) (cell : Vec) : Option α :=
  if isCell cell framed.shape then
    some (framed.inner.getD (cell.map (· - (framed.width : Int))) framed.frame)
  else none

/-- The first cell of the window at an offset. -/
def corner (width : Nat) : (offset : Vec) → (shape : List Nat) → Vec
  | o :: offset, _ :: shape => (width + o) :: corner width offset shape
  | [], shape => shape.map fun _ => 0
  | _, [] => []

/-- The shape of the window at an offset. -/
def opening (width : Nat) : (offset : Vec) → (shape : List Nat) → List Nat
  | _ :: offset, n :: shape => n :: opening width offset shape
  | [], shape => shape.map (· + 2 * width)
  | _, [] => []

/-- The window at an offset. -/
def window (framed : Framed α) (offset : Vec) : Grid α :=
  let first := corner framed.width offset framed.inner.shape
  Grid.ofFn (opening framed.width offset framed.inner.shape) fun cell =>
    (framed.get? (Vec.add first cell)).getD framed.frame

theorem opening_eq (width : Nat) {offset : Vec} {shape : List Nat}
    (same : offset.length = shape.length) : opening width offset shape = shape := by
  induction offset generalizing shape with
  | nil => cases shape with
    | nil => rfl
    | cons n shape => simp at same
  | cons o offset ih => cases shape with
    | nil => simp at same
    | cons n shape => simp [opening, ih (Nat.succ.inj same)]

end Framed

end Cellular
