import Cellular.Proofs.Condition.Agreement
import Cellular.Proofs.Condition.Printed
import Cellular.Proofs.Condition.Renamed
import Cellular.Proofs.States.Registry
import Cellular.Proofs.Tree.Findings

/-!
# Conditions as trees

The skeleton of the tree of a condition is the condition itself, with the trees of its tests.
So the tree is as deep as the condition, has the same written form and the same problems, and
is evaluated alike.
-/

namespace Cellular

variable {α σ : Type}

namespace Tree

/-! ## Skeletons -/

theorem ofConditions_eq (leaf : α → Tree) (cs : List (Condition α)) :
    ofConditions leaf cs = cs.map (ofCondition leaf) := by
  induction cs with
  | nil => rfl
  | cons c cs ih => rw [ofConditions, ih, List.map_cons]

theorem skeletons_eq (trees : List Tree) : skeletons trees = trees.map skeleton := by
  induction trees with
  | nil => rfl
  | cons tree trees ih => rw [skeletons, ih, List.map_cons]

theorem skeleton_not (tree : Tree) (rest : List Tree) :
    (node (word "NOT" :: tree :: rest)).skeleton = .not tree.skeleton :=
  rfl

theorem skeleton_and (trees : List Tree) :
    (node (word "AND" :: trees)).skeleton = .all (skeletons trees) := by
  cases trees <;> rfl

theorem skeleton_or (trees : List Tree) :
    (node (word "OR" :: trees)).skeleton = .any (skeletons trees) := by
  cases trees <;> rfl

private theorem skeletons_ofConditions {leaf : α → Tree} {cs : List (Condition α)}
    (each : ∀ c ∈ cs, (ofCondition leaf c).skeleton = c.map leaf) :
    skeletons (ofConditions leaf cs) = Condition.mapList leaf cs := by
  rw [skeletons_eq, ofConditions_eq, Condition.mapList_eq, List.map_map]
  exact List.map_congr_left each

/-- If the trees of tests are tests, the tree of a condition has its skeleton. -/
theorem skeleton_ofCondition {leaf : α → Tree} (tests : ∀ a, (leaf a).skeleton = .test (leaf a))
    {c : Condition α} (printable : c.Printable) : (ofCondition leaf c).skeleton = c.map leaf := by
  induction c using Condition.inductOn with
  | test a => exact tests a
  | always => exact printable.elim
  | not c ih => exact congrArg Condition.not (ih printable)
  | all cs ih | any cs ih =>
      rcases printable with ⟨_, operands⟩
      rw [Condition.printableAll_iff] at operands
      have each := skeletons_ofConditions fun c member => ih c member (operands c member)
      simp only [ofCondition, skeleton_and, skeleton_or, each, Condition.map]

private theorem ofConditions_mapList {β : Type} {f : α → β} {leaf : β → Tree}
    {cs : List (Condition α)}
    (each : ∀ c ∈ cs, ofCondition leaf (c.map f) = ofCondition (leaf ∘ f) c) :
    ofConditions leaf (Condition.mapList f cs) = ofConditions (leaf ∘ f) cs := by
  rw [ofConditions_eq, ofConditions_eq, Condition.mapList_eq, List.map_map]
  exact List.map_congr_left each

theorem ofCondition_map {β : Type} (f : α → β) (leaf : β → Tree) (c : Condition α) :
    ofCondition leaf (c.map f) = ofCondition (leaf ∘ f) c := by
  induction c using Condition.inductOn with
  | test a => rfl
  | always => rfl
  | not c ih => rw [Condition.map, ofCondition, ofCondition, ih]
  | all cs ih => rw [Condition.map, ofCondition, ofCondition, ofConditions_mapList ih]
  | any cs ih => rw [Condition.map, ofCondition, ofCondition, ofConditions_mapList ih]

end Tree

/-! ## Tests -/

section Tests

variable (state : σ → Tree) (test : CountTest σ)

theorem CountTest.skeleton_tree : (test.tree state).skeleton = .test (test.tree state) :=
  rfl

theorem CountTest.test_tree (report : String → UnknownTag) :
    (test.tree state).test report =
      .ok (.comparison (.word test.comparison.symbol) (state test.state) (.whole test.bound)) :=
  rfl

end Tests

theorem Comparison.comparison_symbol (comparison : Comparison) :
    (Tree.word comparison.symbol).comparison = .ok comparison := by
  cases comparison <;> rfl

/-- Whole numbers are compared as trees as they are compared as numbers. -/
theorem Comparison.compare?_whole (comparison : Comparison) (m n : Int) :
    Tree.compare? comparison (.whole m) (.whole n) = some (comparison.holds m n) := by
  cases comparison with
  | equal | unequal | below | above =>
      simp [Tree.compare?, holds, bne]
  | atMost =>
      simp [Tree.compare?, holds, Int.le_iff_lt_or_eq, Bool.beq_eq_decide_eq]
  | atLeast =>
      simp [Tree.compare?, holds, Int.le_iff_lt_or_eq, Bool.beq_eq_decide_eq, eq_comm]

namespace Condition

variable {state : σ → Tree} {c : Condition (CountTest σ)}

theorem skeleton_tree (printable : c.Printable) :
    (c.tree state).skeleton = c.map (CountTest.tree state) :=
  Tree.skeleton_ofCondition (CountTest.skeleton_tree state) printable

theorem depth_tree (printable : c.Printable) : (c.tree state).depth = .ok c.depth := by
  have fine : ((c.map (CountTest.tree state)).tests.reverse.findSome? Tree.tagFault?) = none := by
    rw [tests_map, List.findSome?_eq_none_iff]
    intro tree member
    rcases List.mem_map.mp (List.mem_reverse.mp member) with ⟨test, _, rfl⟩
    rfl
  rw [Tree.depth, skeleton_tree printable, fine, depth_map]

theorem printCondition_tree {c : Condition (CountTest Name)} (printable : c.Printable)
    (outer : Int) :
    (c.tree Name.word).printCondition outer = c.print (fun test => .ok test.text) outer := by
  rw [Tree.printCondition, skeleton_tree printable, print_map]
  rfl

end Condition

/-! ## Resolving -/

section Resolving

variable (registry : Registry) (most : Option Nat)

theorem Tree.isReachable_whole (bound : Int) :
    isReachable most (whole bound) = .ok (Cellular.isReachable most bound) := by
  cases most with
  | none => rfl
  | some most =>
      rw [isReachable, Comparison.compare?_whole, Comparison.compare?_whole, Cellular.isReachable]
      by_cases positive : 0 ≤ bound
      · simp [decided, positive, Comparison.holds]
      · simp [decided, positive, Comparison.holds]

theorem Tree.stateIndex?_word (name : Name) :
    stateIndex? registry name.word = registry.indexOf? name.text :=
  rfl

/-- As long as it is not known how many neighbours there are, no bound is a problem. -/
private theorem CountTest.problems_eq (test : CountTest Name) :
    test.problems registry most =
      (if (registry.indexOf? test.state.text).isSome then [] else
        [.undeclaredInCondition test.state]) ++
      if Cellular.isReachable most test.bound then [] else
        [.outOfRange test.state test.comparison.symbol test.bound (most.getD 0)] := by
  rw [← Registry.declares_eq]
  cases most <;> rfl

/-- A test has the same problems as a tree, and is resolved to the tree of its resolved
form. -/
theorem CountTest.resolveTest_tree (test : CountTest Name) :
    Tree.resolveTest registry most (test.tree Name.word) =
      .ok ((test.problems registry most).map Problem.bare,
        (test.resolve registry most).map (CountTest.tree numberTree)) := by
  rw [Tree.resolveTest, test_tree, problems_eq, resolve]
  cases known : registry.indexOf? test.state.text <;>
    cases inside : Cellular.isReachable most test.bound <;>
      simp [Tree.stateIndex?_word, Tree.isReachable_whole, known, inside, Problem.bare,
        Problem.map, tree, numberTree]

variable {registry most}

theorem Condition.resolveBy_tree {c : Condition (CountTest Name)} (printable : c.Printable)
    {problems : List Problem} {answer : Option (Condition (CountTest Nat))}
    (done : c.resolve registry most = .ok (problems, answer)) :
    (c.tree Name.word).skeleton.resolveBy (Tree.resolveTest registry most) false =
      .ok (problems.map Problem.bare, answer.map (map (CountTest.tree numberTree))) := by
  rw [skeleton_tree printable]
  apply resolveBy_map _ done
  intro test found resolved known
  rcases Prod.mk.inj (Except.ok.inj known) with ⟨rfl, rfl⟩
  exact CountTest.resolveTest_tree registry most test

end Resolving

end Cellular
