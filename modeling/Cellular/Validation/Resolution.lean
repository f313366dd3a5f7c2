import Cellular.Fault.TreeFault
import Cellular.States.Registry
import Cellular.Validation.Problem

/-!
# Resolving states

Rules speak of states by name; what runs speaks of them by number. Resolving a
condition finds every undeclared state and every bound that no count can reach, from
left to right. A condition without such problems is resolved: names become numbers,
and a chain of negations becomes one negation or none.
-/

namespace Cellular

/-- Whether a bound is a possible count. While the neighbourhood is not known, every
bound is. -/
def isReachable (most : Option Nat) (bound : Int) : Bool :=
  match most with
  | some most => decide (0 ≤ bound) && decide (bound ≤ most)
  | none => true

/-- The problems of one test. -/
def CountTest.problems (registry : Registry) (most : Option Nat) (test : CountTest Name) :
    List Problem :=
  (if registry.declares test.state.text then [] else [.undeclaredInCondition test.state]) ++
    match most with
    | some limit =>
      if isReachable most test.bound then []
      else [.outOfRange test.state test.comparison.symbol test.bound limit]
    | none => []

/-- A test without problems, by number. -/
def CountTest.resolve (registry : Registry) (most : Option Nat) (test : CountTest Name) :
    Option (CountTest Nat) :=
  if isReachable most test.bound then
    (registry.indexOf? test.state.text).map fun index => ⟨test.comparison, index, test.bound⟩
  else none

namespace Condition

variable {α β π : Type}

/-- A condition, negated or as it is. -/
def negateIf (negate : Bool) (c : Condition α) : Condition α :=
  if negate then .not c else c

mutual

/-- Resolves a condition below a chain of negations, of which only the parity counts,
given how to resolve a test. The result has the problems of the condition, and its
resolved form if there are none. -/
def resolveBy (leaf : α → Except TreeFault (List π × Option β)) (negate : Bool) :
    Condition α → Except TreeFault (List π × Option (Condition β))
  | .test a => do
    let (problems, resolved) ← leaf a
    return (problems, resolved.map fun b => negateIf negate (.test b))
  | .not c => resolveBy leaf (!negate) c
  | .all cs => do
    let (problems, resolved) ← resolveList leaf cs
    return (problems, resolved.map fun operands => negateIf negate (.all operands))
  | .any cs => do
    let (problems, resolved) ← resolveList leaf cs
    return (problems, resolved.map fun operands => negateIf negate (.any operands))
  | .always => .error (.unknown (.condition "TRUE"))

/-- Resolves the operands of a node, all of them even if one has problems. -/
def resolveList (leaf : α → Except TreeFault (List π × Option β)) :
    List (Condition α) → Except TreeFault (List π × Option (List (Condition β)))
  | [] => .ok ([], some [])
  | c :: cs => do
    let (first, operand) ← resolveBy leaf false c
    let (others, operands) ← resolveList leaf cs
    return (first ++ others, operand.bind fun c => operands.map (c :: ·))

end

/-- Resolves a condition of a source program. -/
def resolve (registry : Registry) (most : Option Nat) (c : Condition (CountTest Name)) :
    Except TreeFault (List Problem × Option (Condition (CountTest Nat))) :=
  c.resolveBy (fun test => .ok (test.problems registry most, test.resolve registry most)) false

end Condition

end Cellular
