import Cellular.Condition.Evaluation
import Cellular.Condition.Listing
import Cellular.Condition.Printer
import Cellular.Space.Capacity
import Cellular.Space.Vec
import Cellular.Tree.Basic

/-!
# Trees as conditions

The skeleton of a tree is the condition that its conjunctions, disjunctions and negations
make. Whatever else the tree holds is left to the tests of the skeleton: comparisons, the
constant, and nodes that are no conditions at all. A negation is one if it has an operand,
and only its first operand counts.

A condition with such tests is printed, listed and evaluated like any other, and fails at
the first test that cannot be.
-/

namespace Cellular.Tree

mutual

/-- The condition that a tree makes, with trees for its tests. -/
def skeleton : Tree → Condition Tree
  | node (tag :: parts) =>
    if tag.isWord "AND" then .all (skeletons parts)
    else if tag.isWord "OR" then .any (skeletons parts)
    else if tag.isWord "NOT" then match parts with
      | operand :: _ => .not (skeleton operand)
      | [] => .test (node [tag])
    else .test (node (tag :: parts))
  | node [] => .test (node [])
  | leaf value => .test (leaf value)

/-- The conditions that trees make. -/
def skeletons : List Tree → List (Condition Tree)
  | [] => []
  | tree :: trees => skeleton tree :: skeletons trees

end

mutual

/-- The tree of a condition, given the trees of its tests. -/
def ofCondition {α : Type} (leaf : α → Tree) : Condition α → Tree
  | .test a => leaf a
  | .always => node [word "TRUE"]
  | .not c => node [word "NOT", ofCondition leaf c]
  | .all cs => node (word "AND" :: ofConditions leaf cs)
  | .any cs => node (word "OR" :: ofConditions leaf cs)

/-- The trees of conditions. -/
def ofConditions {α : Type} (leaf : α → Tree) : List (Condition α) → List Tree
  | [] => []
  | c :: cs => ofCondition leaf c :: ofConditions leaf cs

end

/-! ## Tests -/

/-- A test of a skeleton that has a meaning. -/
inductive Test where
  | comparison (symbol state bound : Tree)
  | constant

/-- Reads a test of a skeleton. A tag without meaning is reported in the given way. -/
def test (report : String → UnknownTag) (tree : Tree) : Except TreeFault Test := do
  let tag ← tree.tag
  if tag.isWord "COMPARE" then
    let (symbol, state, bound) ← tree.threeOperands
    return .comparison symbol state bound
  else if tag.isWord "TRUE" then return .constant
  else if tag.isWord "NOT" then throw .missingPart
  else throw (tag.unknown report)

/-- The written form of a test. The constant has none. -/
def writtenTest (tree : Tree) : Except TreeFault String := do
  match ← tree.test .condition with
  | .comparison symbol state bound => return testText state.text symbol.text bound.text
  | .constant => throw (.unknown (.condition "TRUE"))

/-- The listed form of a test. -/
def listedTest (tree : Tree) : Except TreeFault String := do
  match ← tree.test .operation with
  | .comparison symbol state bound => return testText state.text symbol.text bound.text
  | .constant => return "true"

/-! ## Texts and depth -/

/-- The written form of a condition at a place that asks for the given strength. -/
def printCondition (outer : Int) (tree : Tree) : Except TreeFault String :=
  tree.skeleton.print writtenTest outer

/-- The condition as a constructed predicate. -/
def predicateText (tree : Tree) : Except TreeFault String :=
  tree.skeleton.construction listedTest

/-- What is wrong with a test even if only its tag is looked at. -/
def tagFault? (tree : Tree) : Option TreeFault :=
  match tree.tag with
  | .ok tag => if tag.isWord "NOT" then some .missingPart else none
  | .error fault => some fault

/-- The depth of a condition. Its nodes are looked at from right to left. -/
def depth (tree : Tree) : Except TreeFault Nat :=
  match tree.skeleton.tests.reverse.findSome? tagFault? with
  | some fault => .error fault
  | none => .ok tree.skeleton.depth

/-! ## States -/

mutual

/-- The states that are compared anywhere in a tree, from left to right. -/
def comparedStates : Tree → Except TreeFault (List Tree)
  | node (tag :: parts) =>
    if tag.isWord "COMPARE" then match parts with
      | _ :: state :: _ => .ok [state]
      | _ => .error .missingPart
    else if tag.isWord "AND" || tag.isWord "OR" || tag.isWord "NOT" then comparedStatesList parts
    else .ok []
  | node [] => .error .missingPart
  | leaf value => do
    let _ ← (leaf value).tag
    return []

/-- The states that are compared anywhere in trees, from left to right. -/
def comparedStatesList : List Tree → Except TreeFault (List Tree)
  | [] => .ok []
  | tree :: trees => do return (← comparedStates tree) ++ (← comparedStatesList trees)

end

/-- The distinct states that a condition may ask for, in increasing order. -/
def census (tree : Tree) : Except TreeFault (List Tree) := do
  sorted (← tree.comparedStates)

/-! ## Values -/

/-- Whether two trees are in the given relation, if they can be. -/
def compare? (comparison : Comparison) (first second : Tree) : Option Bool :=
  match comparison with
  | .equal => some (first.same second)
  | .unequal => some !first.same second
  | .below => first.less? second
  | .atMost => (first.less? second).map (· || first.same second)
  | .above => second.less? first
  | .atLeast => (second.less? first).map (· || first.same second)

/-- The comparison that a tree spells. -/
def comparison (symbol : Tree) : Except TreeFault Comparison :=
  match symbol with
  | leaf (.word text) => match Comparison.ofSymbol? text with
    | some comparison => .ok comparison
    | none => .error .unknownComparison
  | _ => .error .unknownComparison

/-- The verdict of a test. -/
def testVerdict (counts : Tree → Option Tree) (tree : Tree) : Verdict Tree :=
  match tree.test .operation with
  | .error fault => ⟨[], .error (.malformed fault)⟩
  | .ok .constant => .pure true
  | .ok (.comparison symbol state bound) => match symbol.comparison with
    | .error fault => ⟨[], .error (.malformed fault)⟩
    | .ok comparison => match counts state with
      | none => ⟨[state], .error (.missingCount state)⟩
      | some count => ⟨[state], (decided (compare? comparison count bound)).mapError .malformed⟩

/-- The verdict of a condition on the counts at one cell. -/
def verdict (counts : Tree → Option Tree) (tree : Tree) : Verdict Tree :=
  tree.skeleton.verdictBy (testVerdict counts)

/-- The cells whose counts are in the given relation to a bound. A count equals nothing
but a number, and is neither less nor greater than anything else. -/
def comparedCells (comparison : Comparison) (bound : Tree) (counts : Grid Scalar) :
    Except TreeFault (Grid Bool) :=
  match bound, comparison with
  | leaf (.word _), .equal | leaf .missing, .equal => .ok (counts.map fun _ => false)
  | leaf (.word _), .unequal | leaf .missing, .unequal => .ok (counts.map fun _ => true)
  | leaf (.word _), _ => .error .noCommonKind
  | leaf .missing, _ | node _, _ => .error .wrongKind
  | bound, comparison =>
    .ok (counts.map fun count => (compare? comparison (leaf count) bound).getD false)

/-- The mask of a test, given the grid that is true everywhere, if there is one. -/
def testMask (counts : Tree → Option (Grid Scalar))
    (everywhere : Except (EvaluationFault Tree) (Grid Bool)) (tree : Tree) :
    Except (EvaluationFault Tree) (Grid Bool) := do
  match ← (tree.test .operation).mapError .malformed with
  | .constant => everywhere
  | .comparison symbol state bound =>
    let comparison ← symbol.comparison.mapError .malformed
    match counts state with
    | none => throw (.missingCount state)
    | some grid => (comparedCells comparison bound grid).mapError .malformed

/-- The grid of the given extents that is true everywhere, one byte a cell. There is none
of a negative extent or without room in so much memory. -/
def everywhere (memory : Nat) (extents : Vec) : Except (EvaluationFault Tree) (Grid Bool) :=
  let shape := extents.map Int.toNat
  if extents.any (· < 0) then .error .negativeExtent
  else match storageFault? memory 1 shape with
    | some fault => .error (.noRoom fault)
    | none => .ok (Grid.fill shape true)

/-- The cells at which a condition holds. Only the constant needs a grid of its own, for
which there has to be room in so much memory. -/
def mask (memory : Nat) (counts : Tree → Option (Grid Scalar)) (extents : Vec) (tree : Tree) :
    Except (EvaluationFault Tree) (Grid Bool) :=
  tree.skeleton.maskBy (testMask counts (everywhere memory extents)) (everywhere memory extents)

end Cellular.Tree
