import Cellular.Condition.Basic
import Cellular.Fault.TreeFault

/-!
# Printing conditions

A node stands in parentheses exactly when it binds no more tightly than the place
it is printed in asks for: disjunctions bind least, then conjunctions, then
negations, and tests need no parentheses at all.

The printer keeps its own stack of tasks, so that the depth of a condition is
bounded by memory alone. A second stack holds the texts that are finished. Leaving
a node with operands takes the texts of its operands from that stack; a node that
has no operands takes every text that is there.
-/

namespace Cellular.Condition

variable {α : Type}

/-- What the printer still has to do: print a condition, or put a node together
from the finished texts of its operands. -/
inductive Task (α : Type) where
  | visit (c : Condition α) (outer : Int)
  | negate (outer : Int)
  | join (separator : String) (strength : Int) (count : Nat) (outer : Int)

namespace Task

/-- The work a task stands for. -/
def weight : Task α → Nat
  | visit c _ => c.size
  | negate _ | join .. => 1

/-- The work of a list of tasks. -/
def total : List (Task α) → Nat
  | [] => 0
  | task :: tasks => task.weight + total tasks

@[simp]
theorem total_cons (task : Task α) (tasks : List (Task α)) :
    total (task :: tasks) = task.weight + total tasks :=
  rfl

@[simp]
theorem total_append (first second : List (Task α)) :
    total (first ++ second) = total first + total second := by
  induction first with
  | nil => simp [total]
  | cons task first ih => simp [ih, Nat.add_assoc]

theorem total_visits (cs : List (Condition α)) (outer : Int) :
    total (cs.map (visit · outer)) = sizeList cs := by
  induction cs with
  | nil => simp [total, sizeList]
  | cons c cs ih => simp [weight, ih]

end Task

/-- A text in parentheses if the place asks for them. -/
def enclosed (needed : Bool) (text : String) : String :=
  if needed then "(" ++ text ++ ")" else text

/-- Runs the tasks against the stack of finished texts, latest text first. A test is
printed as `leaf` says, and a condition that always holds has no written form. -/
def printAll (leaf : α → Except TreeFault String) :
    List (Task α) → List String → Except TreeFault (List String)
  | [], texts => .ok texts
  | .visit (.test a) _ :: tasks, texts => do printAll leaf tasks ((← leaf a) :: texts)
  | .visit (.not c) outer :: tasks, texts =>
    printAll leaf (.visit c 2 :: .negate outer :: tasks) texts
  | .visit (.all cs) outer :: tasks, texts =>
    printAll leaf (cs.map (.visit · 2) ++ .join " & " 2 cs.length outer :: tasks) texts
  | .visit (.any cs) outer :: tasks, texts =>
    printAll leaf (cs.map (.visit · 1) ++ .join " | " 1 cs.length outer :: tasks) texts
  | .visit .always _ :: _, _ => .error (.unknown (.condition "TRUE"))
  | .negate outer :: tasks, texts =>
    printAll leaf tasks (enclosed (3 ≤ outer) ("!" ++ texts.headD "") :: texts.tail)
  | .join separator strength count outer :: tasks, texts =>
    let taken := if count = 0 then texts else texts.take count
    printAll leaf tasks
      (enclosed (strength ≤ outer) (separator.intercalate taken.reverse) ::
        texts.drop taken.length)
termination_by tasks _ => Task.total tasks
decreasing_by
  all_goals simp [Task.weight, size, Task.total_visits]
  all_goals omega

/-- The written form of a condition at a place that asks for the given strength.
The oldest finished text is the answer. -/
def print (leaf : α → Except TreeFault String) (outer : Int) (c : Condition α) :
    Except TreeFault String :=
  (printAll leaf [.visit c outer] []).map fun texts => texts.getLast?.getD ""

end Cellular.Condition
