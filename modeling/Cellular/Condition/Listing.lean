import Cellular.Condition.Basic
import Cellular.Fault.TreeFault

/-!
# Listing conditions

The listed form of a condition puts every conjunction and every disjunction in
parentheses, needed or not.
-/

namespace Cellular.Condition

variable {α : Type}

mutual

/-- The listed form of a condition, with tests as `leaf` says. -/
def listing (leaf : α → Except TreeFault String) : Condition α → Except TreeFault String
  | .test a => leaf a
  | .always => .ok "true"
  | .not c => do return "!" ++ (← listing leaf c)
  | .all cs => do return "(" ++ " & ".intercalate (← listings leaf cs) ++ ")"
  | .any cs => do return "(" ++ " | ".intercalate (← listings leaf cs) ++ ")"

/-- The listed forms of a list of operands. -/
def listings (leaf : α → Except TreeFault String) :
    List (Condition α) → Except TreeFault (List String)
  | [] => .ok []
  | c :: cs => do return (← listing leaf c) :: (← listings leaf cs)

end

/-- The condition as a constructed predicate. -/
def construction (leaf : α → Except TreeFault String) (c : Condition α) :
    Except TreeFault String := do
  return "Predicate(" ++ (← c.listing leaf) ++ ")"

end Cellular.Condition
