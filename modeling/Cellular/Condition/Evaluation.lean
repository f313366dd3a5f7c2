import Cellular.Condition.Basic
import Cellular.Fault.TreeFault
import Cellular.Space.Capacity
import Cellular.Space.Sorted

/-!
# Evaluating conditions

A condition is evaluated in two ways. At a single cell the counts are read one by
one, from left to right, and an operand that cannot change the outcome is not
evaluated at all; the verdict tells which counts were read. For a whole grid every
test is evaluated at every cell, and the results are combined cell by cell.

Both ways are open to tests of any kind: they are told how to evaluate one. The tests of
a program compare the counts that they find with their bounds.
-/

namespace Cellular

/-- Why a condition has no value. -/
inductive EvaluationFault (σ : Type) where
  | missingCount (state : σ)
  | shapeMismatch
  | negativeExtent
  | noRoom (fault : CapacityFault)
  | malformed (fault : TreeFault)
deriving DecidableEq, Repr

/-! ## At one cell -/

/-- The states whose counts were read, in order, and what came of it. -/
structure Verdict (σ : Type) where
  reads : List σ
  result : Except (EvaluationFault σ) Bool

namespace Verdict

variable {σ : Type}

/-- A verdict without reading anything. -/
def pure (value : Bool) : Verdict σ := ⟨[], .ok value⟩

/-- Goes on after a verdict with a value. -/
def andThen (first : Verdict σ) (next : Bool → Verdict σ) : Verdict σ :=
  match first.result with
  | .ok value => ⟨first.reads ++ (next value).reads, (next value).result⟩
  | .error _ => first

end Verdict

/-- Reads the count of a test and compares it with the bound. -/
def CountTest.verdict {σ : Type} (counts : σ → Option Int) (test : CountTest σ) : Verdict σ :=
  match counts test.state with
  | none => ⟨[test.state], .error (.missingCount test.state)⟩
  | some count => ⟨[test.state], .ok (test.comparison.holds count test.bound)⟩

/-- The cells at which a test holds. -/
def CountTest.mask {σ : Type} (counts : σ → Option (Grid Int)) (test : CountTest σ) :
    Except (EvaluationFault σ) (Grid Bool) :=
  match counts test.state with
  | none => .error (.missingCount test.state)
  | some grid => .ok (grid.map fun count => test.comparison.holds count test.bound)

namespace Condition

variable {α σ : Type}

mutual

/-- The verdict of a condition, given the verdicts of its tests. -/
def verdictBy (leaf : α → Verdict σ) : Condition α → Verdict σ
  | .test a => leaf a
  | .always => .pure true
  | .not c => (verdictBy leaf c).andThen fun value => .pure (!value)
  | .all cs => verdictAll leaf cs
  | .any cs => verdictAny leaf cs

/-- All operands hold, up to the first that does not. -/
def verdictAll (leaf : α → Verdict σ) : List (Condition α) → Verdict σ
  | [] => .pure true
  | c :: cs => (verdictBy leaf c).andThen fun value =>
    if value then verdictAll leaf cs else .pure false

/-- Some operand holds, and those after the first such are not asked. -/
def verdictAny (leaf : α → Verdict σ) : List (Condition α) → Verdict σ
  | [] => .pure false
  | c :: cs => (verdictBy leaf c).andThen fun value =>
    if value then .pure true else verdictAny leaf cs

end

/-- The verdict of a condition on the counts at one cell. -/
def verdict (counts : σ → Option Int) (c : Condition (CountTest σ)) : Verdict σ :=
  c.verdictBy (CountTest.verdict counts)

/-! ## On a whole grid -/

/-- Combines grids of one shape cell by cell. Of no grids at all comes the grid of
rank zero, whose only cell holds the neutral value. -/
def combine (operation : Bool → Bool → Bool) (neutral : Bool) :
    List (Grid Bool) → Except (EvaluationFault σ) (Grid Bool)
  | [] => .ok (Grid.fill [] neutral)
  | [mask] => .ok mask
  | mask :: masks => do
    let others ← combine operation neutral masks
    if same : mask.shape = others.shape then
      return mask.zipWith operation others same
    else throw .shapeMismatch

mutual

/-- The cells at which a condition holds, given the masks of its tests and the grid that
is true everywhere, if there is one. -/
def maskBy (leaf : α → Except (EvaluationFault σ) (Grid Bool))
    (everywhere : Except (EvaluationFault σ) (Grid Bool)) :
    Condition α → Except (EvaluationFault σ) (Grid Bool)
  | .test a => leaf a
  | .always => everywhere
  | .not c => do return (← maskBy leaf everywhere c).map (!·)
  | .all cs => do combine (· && ·) true (← maskList leaf everywhere cs)
  | .any cs => do combine (· || ·) false (← maskList leaf everywhere cs)

/-- The masks of a list of operands. -/
def maskList (leaf : α → Except (EvaluationFault σ) (Grid Bool))
    (everywhere : Except (EvaluationFault σ) (Grid Bool)) :
    List (Condition α) → Except (EvaluationFault σ) (List (Grid Bool))
  | [] => .ok []
  | c :: cs => do return (← maskBy leaf everywhere c) :: (← maskList leaf everywhere cs)

end

/-- The cells of a shape at which a condition holds, given a grid of counts for every
state. -/
def mask (counts : σ → Option (Grid Int)) (shape : List Nat) (c : Condition (CountTest σ)) :
    Except (EvaluationFault σ) (Grid Bool) :=
  c.maskBy (CountTest.mask counts) (.ok (Grid.fill shape true))

/-! ## What a condition asks for -/

/-- The states whose counts a condition may read, as a sorted set. -/
def census [BEq σ] (le : σ → σ → Bool) (c : Condition (CountTest σ)) : List σ :=
  sortedSet le (c.tests.map CountTest.state)

end Condition

end Cellular
