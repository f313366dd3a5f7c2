import Cellular.Space.Boundary
import Cellular.Space.Capacity
import Cellular.Space.Neighborhood
import Cellular.Tree.Basic

/-!
# Trees as neighbourhoods and boundaries

The offsets of a tree that describes a neighbourhood are trees themselves: nodes with a
coordinate for each axis. A magnitude may be anything as long as it is only put in its
place; it has to be a number where its opposite is taken, and a whole one where steps up
to it are counted. In a space of negative rank there is one vector, the empty one, but no
cube.
-/

namespace Cellular.Tree

/-! ## Vectors -/

/-- A vector of whole numbers. -/
def ofVec (v : Vec) : Tree :=
  node (v.map whole)

/-- The vector that is a magnitude along one axis and zero along the others. -/
def unit (rank axis magnitude : Tree) : Except TreeFault Tree := do
  return node ((List.range (← rank.integer).toNat).map fun (i : Nat) =>
    if axis.same (whole i) then magnitude else whole 0)

/-- The opposite of a number. -/
def neg : Tree → Except TreeFault Tree
  | leaf value => match value.neg? with
    | some opposite => .ok (leaf opposite)
    | none => .error .wrongKind
  | node _ => .error .wrongKind

/-- The fault of a sequence that has no place in memory. -/
def ofLengthFault : LengthFault → TreeFault
  | .tooLong _ => .outOfRange
  | .noMemory _ => .outOfMemory

/-- The number of items that a tree asks for. A negative number is one too, as long as it
is a distance between addresses. -/
def length (tree : Tree) : Except TreeFault Int := do
  let length ← tree.integer
  if (greatestAddress : Int) < length || length < -(greatestAddress : Int) - 1 then
    throw .outOfRange
  return length

/-- All vectors of a rank in a cube around the origin, in so much memory. -/
def cube (memory : Nat) (rank radius : Tree) : Except TreeFault (List Vec) := do
  let radius ← radius.integer
  let rank ← rank.length
  if rank < 0 then throw .negativeRank
  match cubeFault? memory rank.toNat radius with
  | some fault => throw (ofLengthFault fault)
  | none => return Vec.hypercube rank.toNat radius

/-! ## Neighbourhoods -/

/-- The axis with the name that a tree spells. -/
def axis (tree : Tree) : Except TreeFault Nat :=
  match tree with
  | leaf (.word name) => match axisIndex? name with
    | some axis => .ok axis
    | none => .error .noSuchAxis
  | _ => .error .noSuchAxis

/-- The offsets along one axis in so much memory, nearest first and the positive side
first. -/
def along (memory : Nat) (rank axis direction magnitude : Tree) :
    Except TreeFault (List Tree) := do
  if direction.isWord "+" then return [← unit rank axis magnitude]
  else if direction.isWord "-" then return [← unit rank axis (← magnitude.neg)]
  else if direction.isWord "+-" then
    return [← unit rank axis magnitude, ← unit rank axis (← magnitude.neg)]
  else if direction.isWord "within" then
    let reach := (← magnitude.integer).toNat
    if let some fault := growthFault? memory (2 * reach) then
      let _ ← rank.integer
      throw (ofLengthFault fault)
    let steps ← (List.range reach).mapM fun (k : Nat) => do
      return [← unit rank axis (whole (k + 1)), ← unit rank axis (whole (-(k + 1)))]
    return steps.flatten
  else throw (direction.unknown .direction)

/-- The offsets of one rule in so much memory, in the order in which the rule lists them. -/
def ruleOffsets (memory : Nat) (rule rank : Tree) : Except TreeFault (List Tree) := do
  let (place, direction, magnitude) ← rule.triple
  if place.isWord everyAxis then
    let axes := List.range (← rank.integer).toNat
    if direction.isWord "within" then
      return ((← cube memory rank magnitude).filter fun v => 0 < v.chebyshev).map ofVec
    else
      return (← axes.mapM fun (i : Nat) => along memory rank (whole i) direction magnitude).flatten
  else along memory rank (whole (← place.axis)) direction magnitude

/-- The offsets of a neighbourhood in so much memory: distinct, and in increasing order. -/
def offsets (memory : Nat) (shape rank : Tree) : Except TreeFault (List Tree) := do
  let kind ← shape.tag
  if kind.isWord "MOORE" then
    return ((← cube memory rank (whole 1)).filter fun v => v.chebyshev == 1).map ofVec
  else if kind.isWord "VON_NEUMANN" then
    return ((← cube memory rank (whole 1)).filter fun v => v.manhattan == 1).map ofVec
  else if kind.isWord "CUSTOM" then
    sorted (← (← shape.operands).mapM fun rule => rule.ruleOffsets memory rank).flatten
  else throw (kind.unknown .neighborhood)

/-! ## Boundaries -/

/-- The boundary that a tree describes, with a tree for its state. -/
def boundary (tree : Tree) : Except TreeFault (Boundary Tree) := do
  let kind ← tree.tag
  if kind.isWord "VOID" then return .void
  else if kind.isWord "WRAP" then return .wrap
  else if kind.isWord "STATIC" then match ← tree.operands with
    | state :: _ => return .static state
    | [] => throw .missingPart
  else throw (kind.unknown .boundary)

/-- The number that a cell keeps of a tree. -/
def cell : Tree → Except CellFault Int
  | leaf value => value.cell
  | node _ => .error .nothing

/-- Whether two boundaries are of one kind and have equal states. -/
def sameBoundary : Boundary Tree → Boundary Tree → Bool
  | .void, .void | .wrap, .wrap => true
  | .static a, .static b => a.same b
  | _, _ => false

end Cellular.Tree
