/-!
# Integer vectors

The coordinates of a cell and the offset from a cell to a neighbour are lists of
integers, one for each axis. Vectors are ordered lexicographically.
-/

namespace Cellular

/-- A vector of integers, one for each axis. -/
abbrev Vec := List Int

namespace Vec

/-- The sum of two vectors, as long as the shorter one. -/
def add (v w : Vec) : Vec :=
  List.zipWith (· + ·) v w

/-- The opposite vector. -/
def neg (v : Vec) : Vec :=
  v.map (- ·)

/-- The greatest distance along one axis. -/
def chebyshev (v : Vec) : Nat :=
  (v.map Int.natAbs).foldl max 0

/-- The sum of the distances along the axes. -/
def manhattan (v : Vec) : Nat :=
  v.foldr (fun c sum => c.natAbs + sum) 0

/-- The vector of the given length along one axis. An axis beyond the rank leaves
the zero vector. -/
def unit (rank : Nat) (axis : Int) (magnitude : Int := 1) : Vec :=
  (List.range rank).map fun (i : Nat) => if (i : Int) = axis then magnitude else 0

/-- The integers from `-radius` to `radius`. -/
def segment (radius : Int) : List Int :=
  (List.range (2 * radius + 1).toNat).map fun (i : Nat) => (i : Int) - radius

/-- All vectors of a rank whose coordinates lie between `-radius` and `radius`, in
lexicographic order. -/
def hypercube : (rank : Nat) → (radius : Int) → List Vec
  | 0, _ => [[]]
  | rank + 1, radius =>
    (segment radius).flatMap fun a => (hypercube rank radius).map (a :: ·)

/-- The lexicographic order; a vector comes before its extensions. -/
def le : Vec → Vec → Bool
  | [], _ => true
  | _ :: _, [] => false
  | a :: v, b :: w => a < b || (a == b && le v w)

end Vec

/-! ## Axes -/

/-- The names of the axes, in the order of the coordinates. -/
def axisNames : List String := ["x", "y", "z"]

/-- The number of the axis with the given name. -/
def axisIndex? (name : String) : Option Nat :=
  axisNames.idxOf? name

end Cellular
