import Cellular.Proofs.Program.Clauses
import Cellular.Proofs.Tree.Conditions

/-!
# Evaluating conditions as trees

The tree of a condition is evaluated like the condition, both at one cell and on a whole grid:
every tag in it is known, and if the states that it asks for have counts, it has a value. The
same holds of the constant, which keeps a state without rules.
-/

namespace Cellular

variable {σ : Type} {state : σ → Tree}

/-! ## States -/

private theorem comparedStatesList_trees {cs : List (Condition (CountTest σ))}
    (each : ∀ c ∈ cs, (c.tree state).comparedStates =
      .ok (c.tests.map fun test => state test.state)) :
    Tree.comparedStatesList (Tree.ofConditions (CountTest.tree state) cs) =
      .ok ((Condition.testsList cs).map fun test => state test.state) := by
  induction cs with
  | nil => rfl
  | cons c cs ih =>
      rcases List.forall_mem_cons.mp each with ⟨first, others⟩
      have own : (Tree.ofCondition (CountTest.tree state) c).comparedStates = _ := first
      rw [Tree.ofConditions, Tree.comparedStatesList, own, ih others, Condition.testsList,
        List.map_append]
      rfl

/-- The tree of a condition compares the states that its tests count. -/
theorem Condition.comparedStates_tree (c : Condition (CountTest σ)) :
    (c.tree state).comparedStates = .ok (c.tests.map fun test => state test.state) := by
  induction c using Condition.inductOn with
  | test a => rfl
  | always => rfl
  | not c ih =>
      have single := comparedStatesList_trees (List.forall_mem_singleton.mpr ih)
      rw [testsList, testsList, List.append_nil] at single
      exact single
  | all cs ih | any cs ih => exact comparedStatesList_trees ih

/-! ## At one cell -/

theorem CountTest.testVerdict_tree {counts : σ → Int} {given : Tree → Option Tree}
    (known : ∀ s, given (state s) = some (.whole (counts s))) (test : CountTest σ) :
    ((test.tree state).testVerdict given).result = .ok (test.value counts) := by
  rw [Tree.testVerdict, test_tree]
  simp only [Comparison.comparison_symbol, known, Comparison.compare?_whole, Tree.decided]
  rfl

/-- With a count for every state, the verdict on the tree of a condition is the truth value of
the condition. -/
theorem Condition.verdict_tree {c : Condition (CountTest σ)} (printable : c.Printable)
    {counts : σ → Int} {given : Tree → Option Tree}
    (known : ∀ s, given (state s) = some (.whole (counts s))) :
    ((c.tree state).verdict given).result = .ok (c.value (CountTest.value counts)) := by
  rw [Tree.verdict, skeleton_tree printable, verdictBy_map]
  exact verdictBy_result (CountTest.testVerdict_tree known) c

/-! ## On a whole grid -/

section Grids

variable {shape : List Nat} {counts : Vec → σ → Int} {given : Tree → Option (Grid Scalar)}

theorem Tree.comparedCells_whole (comparison : Comparison) (bound : Int) (values : Vec → Int) :
    comparedCells comparison (whole bound) ((Grid.ofFn shape values).map Scalar.whole) =
      .ok (Grid.ofFn shape fun cell => comparison.holds (values cell) bound) := by
  have compared (n : Int) :
      (compare? comparison (leaf (.whole n)) (whole bound)).getD false = comparison.holds n bound :=
    congrArg (Option.getD · false) (comparison.compare?_whole n bound)
  rw [Grid.map_ofFn]
  apply congrArg Except.ok
  apply (Grid.map_ofFn ..).trans
  exact Grid.ofFn_congr fun cell _ => compared (values cell)

theorem CountTest.testMask_tree {everywhere : Except (EvaluationFault Tree) (Grid Bool)}
    {test : CountTest σ}
    (known : given (state test.state) =
      some ((Grid.ofFn shape (counts · test.state)).map Scalar.whole)) :
    (test.tree state).testMask given everywhere =
      .ok (Grid.ofFn shape fun cell => test.value (counts cell)) := by
  rw [Tree.testMask, test_tree]
  simp only [Except.mapError, ok_bind, Comparison.comparison_symbol, known,
    Tree.comparedCells_whole]
  rfl

theorem Tree.everywhere_natural {memory : Nat} (room : storageFault? memory 1 shape = none) :
    everywhere memory (shape.map Int.ofNat) = .ok (Grid.fill shape true) := by
  have natural : (shape.map Int.ofNat).any (· < 0) = false := by
    simp [List.any_eq_false]
  have same : (shape.map Int.ofNat).map Int.toNat = shape := by
    simp [Function.comp_def]
  rw [everywhere, natural, same, room]
  rfl

/-- The mask of the tree of a condition shows where the condition is true. -/
theorem Condition.mask_tree {memory : Nat} {c : Condition (CountTest σ)}
    (printable : c.Printable) (room : storageFault? memory 1 shape = none)
    (known : ∀ test ∈ c.tests, given (state test.state) =
      some ((Grid.ofFn shape (counts · test.state)).map Scalar.whole)) :
    (c.tree state).mask memory given (shape.map Int.ofNat) =
      .ok (Grid.ofFn shape fun cell => c.value (CountTest.value (counts cell))) := by
  let leaf (test : CountTest σ) :=
    (test.tree state).testMask given (.ok (Grid.fill shape true))
  have masks : c.maskBy leaf (.ok (Grid.fill shape true)) = .ok (Grid.ofFn shape fun cell =>
      c.value (CountTest.value (counts cell))) :=
    maskBy_eq printable.branching fun test member => CountTest.testMask_tree (known test member)
  rw [Tree.mask, skeleton_tree printable, Tree.everywhere_natural room]
  exact (maskBy_map fun _ _ => rfl).trans masks

end Grids

/-! ## Clauses -/

/-- A condition that is always true keeps a state, and any other is built from tests. -/
def Clause.Written (clause : Clause) : Prop :=
  clause.condition = .always ∨ clause.condition.Printable

theorem Clause.Written.verdict {clause : Clause} (written : clause.Written)
    {counts : Nat → Int} {given : Tree → Option Tree}
    (known : ∀ s, given (numberTree s) = some (.whole (counts s))) :
    ((clause.condition.tree numberTree).verdict given).result = .ok (clause.fires counts) := by
  rcases written with always | printable
  · rw [fires, always]
    rfl
  · exact Condition.verdict_tree printable known

theorem Clause.Written.mask {memory : Nat} {clause : Clause} (written : clause.Written)
    {shape : List Nat} {counts : Vec → Nat → Int} {given : Tree → Option (Grid Scalar)}
    (room : storageFault? memory 1 shape = none)
    (known : ∀ test ∈ clause.condition.tests, given (numberTree test.state) =
      some ((Grid.ofFn shape (counts · test.state)).map Scalar.whole)) :
    (clause.condition.tree numberTree).mask memory given (shape.map Int.ofNat) =
      .ok (Grid.ofFn shape fun cell => clause.fires (counts cell)) := by
  rcases written with always | printable
  · have full := Tree.everywhere_natural room
    rw [Grid.fill_eq_ofFn] at full
    simp only [fires, always]
    exact full
  · exact Condition.mask_tree printable room known

end Cellular
