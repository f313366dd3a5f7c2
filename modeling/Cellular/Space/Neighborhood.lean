import Cellular.Source.Position
import Cellular.Space.Sorted
import Cellular.Space.Vec

/-!
# Neighbourhoods

A neighbourhood is described by a named shape or by a list of rules, each of which
contributes offsets along one axis, along every axis, or in a whole cube. What it
denotes is the sorted set of these offsets.
-/

namespace Cellular

/-- On which side of a cell a rule looks for neighbours. -/
inductive Direction where
  | plus
  | minus
  | plusMinus
  | within
deriving DecidableEq, Repr

/-- The written form of a direction. -/
def Direction.symbol : Direction → String
  | plus => "+"
  | minus => "-"
  | plusMinus => "+-"
  | within => "within"

/-- One rule of a custom neighbourhood. The axis is a name or `*` for every axis. -/
structure OffsetRule where
  axis : Name
  direction : Direction
  magnitude : Int
deriving DecidableEq, Repr

/-- A neighbourhood as it is declared. -/
inductive Neighborhood where
  | moore
  | vonNeumann
  | custom (rules : List OffsetRule)
deriving DecidableEq, Repr

/-- Why a neighbourhood has no offsets: an axis has none of the names of axes. -/
inductive OffsetFault where
  | noSuchAxis (name : String)
deriving DecidableEq, Repr

/-- The name that stands for every axis. -/
def everyAxis : String := "*"

/-- The axes a rule speaks of: those of the rank, or the one it names, which may
lie beyond the rank. -/
def OffsetRule.axes (rank : Nat) (rule : OffsetRule) : Except OffsetFault (List Nat) :=
  if rule.axis.text = everyAxis then .ok (List.range rank)
  else match axisIndex? rule.axis.text with
    | some axis => .ok [axis]
    | none => .error (.noSuchAxis rule.axis.text)

/-- The offsets along one axis, nearest first and the positive side first. -/
def Direction.along (rank axis : Nat) (magnitude : Int) : Direction → List Vec
  | plus => [Vec.unit rank axis magnitude]
  | minus => [Vec.unit rank axis (-magnitude)]
  | plusMinus => [Vec.unit rank axis magnitude, Vec.unit rank axis (-magnitude)]
  | within => (List.range magnitude.toNat).flatMap fun (k : Nat) =>
      [Vec.unit rank axis (k + 1), Vec.unit rank axis (-(k + 1))]

/-- The offsets of one rule, in the order in which the rule lists them. Within a
distance on every axis means the whole cube around the cell. -/
def OffsetRule.offsets (rank : Nat) (rule : OffsetRule) : Except OffsetFault (List Vec) := do
  let axes ← rule.axes rank
  if rule.direction = .within && rule.axis.text = everyAxis then
    return (Vec.hypercube rank rule.magnitude).filter fun v => 0 < v.chebyshev
  else
    return axes.flatMap fun axis => rule.direction.along rank axis rule.magnitude

namespace Neighborhood

/-- The offsets of a neighbourhood: distinct, and in increasing order. -/
def offsets (rank : Nat) : Neighborhood → Except OffsetFault (List Vec)
  | moore => .ok (sortedSet Vec.le ((Vec.hypercube rank 1).filter fun v => v.chebyshev == 1))
  | vonNeumann =>
    .ok (sortedSet Vec.le ((Vec.hypercube rank 1).filter fun v => v.manhattan == 1))
  | custom rules => do
    return sortedSet Vec.le (← rules.mapM (·.offsets rank)).flatten

end Neighborhood

end Cellular
