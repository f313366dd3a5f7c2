/-!
# Conditions

A condition is a Boolean combination of tests. Conjunctions and disjunctions take
any number of operands, and nesting is kept: a conjunction inside a conjunction is
a tree of its own and not two more operands. What a test is, is left open: that of a
program compares a neighbour count with a bound.
-/

namespace Cellular

/-- How a neighbour count is compared with a bound. -/
inductive Comparison where
  | equal
  | unequal
  | below
  | atMost
  | above
  | atLeast
deriving DecidableEq, Repr

namespace Comparison

/-- The written form of a comparison. -/
def symbol : Comparison → String
  | equal => "=="
  | unequal => "!="
  | below => "<"
  | atMost => "<="
  | above => ">"
  | atLeast => ">="

/-- The comparison with the given written form. -/
def ofSymbol? : String → Option Comparison
  | "==" => some equal
  | "!=" => some unequal
  | "<" => some below
  | "<=" => some atMost
  | ">" => some above
  | ">=" => some atLeast
  | _ => none

/-- Whether a count is related to a bound. -/
def holds : Comparison → (count bound : Int) → Bool
  | equal, count, bound => count == bound
  | unequal, count, bound => count != bound
  | below, count, bound => count < bound
  | atMost, count, bound => count ≤ bound
  | above, count, bound => bound < count
  | atLeast, count, bound => bound ≤ count

end Comparison

/-- A test compares the number of neighbours in a state with a bound. States are
named in source programs and numbered in compiled ones. -/
structure CountTest (σ : Type) where
  comparison : Comparison
  state : σ
  bound : Int
deriving DecidableEq, Repr

/-- The written form of a test with the given parts. -/
def testText (state comparison bound : String) : String :=
  "neighborhood(" ++ state ++ ") " ++ comparison ++ " " ++ bound

/-- The written form of a test. -/
def CountTest.text {σ : Type} [ToString σ] (test : CountTest σ) : String :=
  testText (toString test.state) test.comparison.symbol (toString test.bound)

/-- Boolean combinations of tests. -/
inductive Condition (α : Type) where
  | test (a : α)
  | always
  | not (operand : Condition α)
  | all (operands : List (Condition α))
  | any (operands : List (Condition α))
deriving Repr

namespace Condition

variable {α β : Type}

mutual

/-- Equality of conditions is decided operand by operand. -/
def decEq [DecidableEq α] : (a b : Condition α) → Decidable (a = b)
  | .test a, b => match b with
    | .test b => if h : a = b then isTrue (h ▸ rfl) else isFalse fun e => h (by cases e; rfl)
    | .always | .not _ | .all _ | .any _ => isFalse nofun
  | .always, b => match b with
    | .always => isTrue rfl
    | .test _ | .not _ | .all _ | .any _ => isFalse nofun
  | .not a, b => match b with
    | .not b => match decEq a b with
      | isTrue h => isTrue (h ▸ rfl)
      | isFalse h => isFalse fun e => h (by cases e; rfl)
    | .test _ | .always | .all _ | .any _ => isFalse nofun
  | .all as, b => match b with
    | .all bs => match decEqList as bs with
      | isTrue h => isTrue (h ▸ rfl)
      | isFalse h => isFalse fun e => h (by cases e; rfl)
    | .test _ | .always | .not _ | .any _ => isFalse nofun
  | .any as, b => match b with
    | .any bs => match decEqList as bs with
      | isTrue h => isTrue (h ▸ rfl)
      | isFalse h => isFalse fun e => h (by cases e; rfl)
    | .test _ | .always | .not _ | .all _ => isFalse nofun

/-- Equality of operand lists. -/
def decEqList [DecidableEq α] : (as bs : List (Condition α)) → Decidable (as = bs)
  | [], [] => isTrue rfl
  | [], _ :: _ => isFalse nofun
  | _ :: _, [] => isFalse nofun
  | a :: as, b :: bs => match decEq a b, decEqList as bs with
    | isTrue h, isTrue hs => isTrue (by rw [h, hs])
    | isFalse h, _ => isFalse fun e => h (List.cons.inj e).1
    | _, isFalse hs => isFalse fun e => hs (List.cons.inj e).2

end

instance [DecidableEq α] : DecidableEq (Condition α) := decEq

/-! ## Views of a condition -/

mutual

/-- The number of nodes, every node with operands counted twice: once when it is
entered and once when it is left. -/
def size : Condition α → Nat
  | .test _ | .always => 1
  | .not c => size c + 2
  | .all cs | .any cs => sizeList cs + 2

/-- The total size of a list of operands. -/
def sizeList : List (Condition α) → Nat
  | [] => 0
  | c :: cs => size c + sizeList cs

end

mutual

/-- The tests of a condition from left to right. -/
def tests : Condition α → List α
  | .test a => [a]
  | .always => []
  | .not c => tests c
  | .all cs | .any cs => testsList cs

/-- The tests of a list of operands from left to right. -/
def testsList : List (Condition α) → List α
  | [] => []
  | c :: cs => tests c ++ testsList cs

end

mutual

/-- How deep conjunctions and disjunctions are nested. Negations do not count. -/
def depth : Condition α → Nat
  | .test _ | .always => 1
  | .not c => depth c
  | .all cs | .any cs => depthList cs + 1

/-- The greatest depth in a list of operands. -/
def depthList : List (Condition α) → Nat
  | [] => 0
  | c :: cs => max (depth c) (depthList cs)

end

/-! ## Small laws -/

@[simp]
theorem sizeList_cons (c : Condition α) (cs : List (Condition α)) :
    sizeList (c :: cs) = size c + sizeList cs := by
  rw [sizeList]

theorem one_le_depth (c : Condition α) : 1 ≤ depth c := by
  induction c using Condition.rec (motive_2 := fun _ => True) <;> simp_all [depth]

end Condition

end Cellular
