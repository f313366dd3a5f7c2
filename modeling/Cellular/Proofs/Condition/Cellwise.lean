import Cellular.Proofs.Tree.Evaluation

/-!
# Masks cell by cell

A verdict may leave operands out, and a mask may not. Still the mask of a condition has the
shape that is asked for, and shows at every cell the verdict on the counts of that cell, as
long as every node has an operand and there are counts for the states that are compared. The
other states need no counts.

The same holds of a condition that is handed over as a tree, where the constant is one more
test.
-/

namespace Cellular

/-- A mask has a shape, and shows at every cell what the verdict there is. -/
structure Grid.Agrees {σ : Type} (mask : Grid Bool) (extents : List Nat)
    (verdictAt : Vec → Verdict σ) : Prop where
  shape : mask.shape = extents
  shows : ∀ cell, isCell cell extents →
    ∃ value, mask.get? cell = some value ∧ (verdictAt cell).result = .ok value

namespace Condition

variable {α σ τ : Type}

/-! ## Verdicts on the tests that occur -/

section Related

variable {leaf : α → Verdict σ} {leaf' : α → Verdict τ} {R : Verdict σ → Verdict τ → Prop}

private theorem verdictAll_related (known : ∀ value, R (.pure value) (.pure value))
    (onwards : ∀ {v w f g}, R v w → (∀ value, R (f value) (g value)) →
      R (v.andThen f) (w.andThen g))
    {cs : List (Condition α)} (each : ∀ c ∈ cs, R (c.verdictBy leaf) (c.verdictBy leaf')) :
    R (verdictAll leaf cs) (verdictAll leaf' cs) := by
  induction cs with
  | nil => exact known true
  | cons c cs ih =>
      rcases List.forall_mem_cons.mp each with ⟨first, others⟩
      refine onwards first ?_
      intro value
      cases value with
      | true => exact ih others
      | false => exact known false

private theorem verdictAny_related (known : ∀ value, R (.pure value) (.pure value))
    (onwards : ∀ {v w f g}, R v w → (∀ value, R (f value) (g value)) →
      R (v.andThen f) (w.andThen g))
    {cs : List (Condition α)} (each : ∀ c ∈ cs, R (c.verdictBy leaf) (c.verdictBy leaf')) :
    R (verdictAny leaf cs) (verdictAny leaf' cs) := by
  induction cs with
  | nil => exact known false
  | cons c cs ih =>
      rcases List.forall_mem_cons.mp each with ⟨first, others⟩
      refine onwards first ?_
      intro value
      cases value with
      | true => exact known true
      | false => exact ih others

/-- Verdicts are related if those on the tests that occur are: it is enough that the relation
holds between constants, and is kept by going on. -/
theorem verdictBy_related (known : ∀ value, R (.pure value) (.pure value))
    (onwards : ∀ {v w f g}, R v w → (∀ value, R (f value) (g value)) →
      R (v.andThen f) (w.andThen g))
    {c : Condition α} (tests : ∀ a ∈ c.tests, R (leaf a) (leaf' a)) :
    R (c.verdictBy leaf) (c.verdictBy leaf') := by
  induction c using inductOn with
  | test a => exact tests a (List.mem_singleton.mpr rfl)
  | always => exact known true
  | not c ih => exact onwards (ih tests) fun value => known !value
  | all cs ih =>
      exact verdictAll_related known onwards fun c member =>
        ih c member fun a inOperand => tests a (mem_testsList.mpr ⟨c, member, inOperand⟩)
  | any cs ih =>
      exact verdictAny_related known onwards fun c member =>
        ih c member fun a inOperand => tests a (mem_testsList.mpr ⟨c, member, inOperand⟩)

end Related

section Verdicts

variable {leaf leaf' : α → Verdict σ}

/-- A verdict depends on the verdicts on the tests that occur. -/
theorem verdictBy_congr {c : Condition α} (same : ∀ a ∈ c.tests, leaf a = leaf' a) :
    c.verdictBy leaf = c.verdictBy leaf' := by
  apply verdictBy_related (fun _ => rfl) _ same
  rintro v _ f g rfl later
  exact congrArg v.andThen (funext later)

/-- If the tests that occur have values, the verdict is the truth value of the condition. -/
theorem verdictBy_result_of_tests {truth : α → Bool} {c : Condition α}
    (tests : ∀ a ∈ c.tests, (leaf a).result = .ok (truth a)) :
    (c.verdictBy leaf).result = .ok (c.value truth) := by
  have same : ∀ a ∈ c.tests, leaf a = ⟨(leaf a).reads, .ok (truth a)⟩ := fun a occurs =>
    congrArg (Verdict.mk (leaf a).reads) (tests a occurs)
  rw [verdictBy_congr same]
  exact verdictBy_result (fun _ => rfl) c

end Verdicts

/-! ## Masks -/

/-- If the masks of the tests that occur agree with the verdicts on these, the mask of the
condition agrees with the verdicts on it. -/
theorem exists_maskBy_agrees {shape : List Nat}
    {leaf : α → Except (EvaluationFault σ) (Grid Bool)} {leafAt : Vec → α → Verdict τ}
    {c : Condition α} (branching : c.Branching 1)
    (tests : ∀ a ∈ c.tests, ∃ mask, leaf a = .ok mask ∧ mask.Agrees shape (leafAt · a)) :
    ∃ mask, c.maskBy leaf (.ok (Grid.fill shape true)) = .ok mask ∧
      mask.Agrees shape fun cell => c.verdictBy (leafAt cell) := by
  let truth (cell : Vec) (a : α) : Bool := (leafAt cell a).result.toOption.getD false
  have value_eq : ∀ {cell a value}, (leafAt cell a).result = .ok value → truth cell a = value :=
    fun known => congrArg (fun result => result.toOption.getD false) known
  have masks : ∀ a ∈ c.tests, leaf a = .ok (Grid.ofFn shape fun cell => truth cell a) := by
    intro a occurs
    rcases tests a occurs with ⟨mask, known, agrees⟩
    rw [known]
    apply congrArg Except.ok
    apply Grid.eq_ofFn agrees.shape
    intro cell inside
    rcases agrees.shows cell inside with ⟨value, shown, decided⟩
    rw [shown, value_eq decided]
  have verdicts : ∀ cell, isCell cell shape →
      (c.verdictBy (leafAt cell)).result = .ok (c.value (truth cell)) := by
    intro cell inside
    apply verdictBy_result_of_tests
    intro a occurs
    rcases tests a occurs with ⟨mask, _, agrees⟩
    rcases agrees.shows cell inside with ⟨value, _, decided⟩
    rw [decided, value_eq decided]
  exact ⟨_, maskBy_eq branching masks, rfl, fun cell inside =>
    ⟨_, Grid.get?_ofFn_of_isCell inside _, verdicts cell inside⟩⟩

end Condition

/-! ## Tests -/

/-- The counts that are read at one cell. -/
def countsAtCell {σ : Type} (counts : σ → Option (Grid Int)) (cell : Vec) (state : σ) :
    Option Int :=
  (counts state).bind (·.get? cell)

/-- The same for counts that are handed over with trees for the states. -/
def treesAtCell (given : Tree → Option (Grid Scalar)) (cell : Vec) (state : Tree) : Option Tree :=
  ((given state).bind (·.get? cell)).map Tree.leaf

section Tests

variable {σ : Type}

theorem CountTest.mask_agrees {counts : σ → Option (Grid Int)} {test : CountTest σ}
    {grid : Grid Int} (known : counts test.state = some grid) :
    ∃ mask, test.mask counts = .ok mask ∧
      mask.Agrees grid.shape fun cell => test.verdict (countsAtCell counts cell) := by
  have masked : test.mask counts =
      .ok (grid.map fun count => test.comparison.holds count test.bound) := by
    rw [mask, known]
  use grid.map fun count => test.comparison.holds count test.bound, masked, rfl
  intro cell inside
  rcases Grid.exists_get?_eq_some inside with ⟨count, found⟩
  have read : countsAtCell counts cell test.state = some count := by
    rw [countsAtCell, known, Option.bind_some, found]
  use test.comparison.holds count test.bound
  constructor
  · rw [Grid.get?_map, found, Option.map_some]
  · rw [verdict, read]

theorem Tree.comparedCells_map_whole (comparison : Comparison) (bound : Int) (grid : Grid Int) :
    comparedCells comparison (whole bound) (grid.map Scalar.whole) =
      .ok (grid.map fun count => comparison.holds count bound) := by
  have compared : comparedCells comparison (whole bound)
      ((Grid.ofFn grid.shape (grid.getD · 0)).map Scalar.whole) =
        .ok (Grid.ofFn grid.shape fun cell => comparison.holds (grid.getD cell 0) bound) :=
    comparedCells_whole comparison bound (grid.getD · 0)
  rw [Grid.ofFn_getD] at compared
  rw [compared, Grid.map_eq_ofFn grid _ 0]

theorem CountTest.testMask_agrees {state : σ → Tree} {given : Tree → Option (Grid Scalar)}
    {everywhere : Except (EvaluationFault Tree) (Grid Bool)} {test : CountTest σ}
    {grid : Grid Int} (known : given (state test.state) = some (grid.map Scalar.whole)) :
    ∃ mask, (test.tree state).testMask given everywhere = .ok mask ∧
      mask.Agrees grid.shape fun cell =>
        (test.tree state).testVerdict (treesAtCell given cell) := by
  have masked : (test.tree state).testMask given everywhere =
      .ok (grid.map fun count => test.comparison.holds count test.bound) := by
    rw [Tree.testMask, test_tree]
    simp only [Except.mapError, ok_bind, Comparison.comparison_symbol, known,
      Tree.comparedCells_map_whole]
  use grid.map fun count => test.comparison.holds count test.bound, masked, rfl
  intro cell inside
  rcases Grid.exists_get?_eq_some inside with ⟨count, found⟩
  have read : treesAtCell given cell (state test.state) = some (.whole count) := by
    rw [treesAtCell, known, Option.bind_some, Grid.get?_map, found]
    rfl
  use test.comparison.holds count test.bound
  constructor
  · rw [Grid.get?_map, found, Option.map_some]
  · rw [Tree.testVerdict, test_tree]
    simp only [Comparison.comparison_symbol, read, Comparison.compare?_whole, Tree.decided]
    rfl

/-- The constant is true everywhere. -/
theorem Tree.constant_agrees (given : Tree → Option (Grid Scalar)) (shape : List Nat) :
    ∃ mask, (node [word "TRUE"]).testMask given (.ok (Grid.fill shape true)) = .ok mask ∧
      mask.Agrees shape fun cell => (node [word "TRUE"]).testVerdict (treesAtCell given cell) := by
  have shown : ∀ cell, isCell cell shape → (Grid.fill shape true).get? cell = some true := by
    intro cell inside
    rw [Grid.get?_fill, if_pos inside]
  exact ⟨Grid.fill shape true, rfl, rfl, fun cell inside => ⟨true, shown cell inside, rfl⟩⟩

end Tests

/-! ## Trees of conditions -/

namespace Tree

variable {α : Type} {leaf : α → Tree}

private theorem skeletons_ofConditions_eq (cs : List (Condition α)) :
    skeletons (ofConditions leaf cs) = cs.map fun c => (ofCondition leaf c).skeleton := by
  rw [skeletons_eq, ofConditions_eq, List.map_map]
  rfl

private theorem mem_testsList_skeletons {cs : List (Condition α)} {tree : Tree} :
    tree ∈ Condition.testsList (skeletons (ofConditions leaf cs)) ↔
      ∃ c ∈ cs, tree ∈ (ofCondition leaf c).skeleton.tests := by
  rw [skeletons_ofConditions_eq, Condition.mem_testsList]
  simp only [List.mem_map, exists_exists_and_eq_and]

/-- In the tree of a condition the constant stands among the tests. -/
theorem mem_tests_skeleton (tests : ∀ a, (leaf a).skeleton = .test (leaf a)) {c : Condition α}
    {tree : Tree} (occurs : tree ∈ (ofCondition leaf c).skeleton.tests) :
    tree = node [word "TRUE"] ∨ ∃ a ∈ c.tests, tree = leaf a := by
  induction c using Condition.inductOn with
  | test a =>
      rw [ofCondition, tests, Condition.tests, List.mem_singleton] at occurs
      exact Or.inr ⟨a, List.mem_singleton.mpr rfl, occurs⟩
  | always => exact Or.inl (List.mem_singleton.mp occurs)
  | not c ih => exact ih occurs
  | all cs ih | any cs ih =>
      simp only [ofCondition, skeleton_and, skeleton_or, Condition.tests,
        mem_testsList_skeletons] at occurs
      rcases occurs with ⟨c, member, occurs⟩
      rcases ih c member occurs with constant | ⟨a, inOperand, same⟩
      · exact Or.inl constant
      · exact Or.inr ⟨a, Condition.mem_testsList.mpr ⟨c, member, inOperand⟩, same⟩

private theorem branchingAll_skeletons {least : Nat} {cs : List (Condition α)}
    (each : ∀ c ∈ cs, (ofCondition leaf c).skeleton.Branching least) :
    Condition.BranchingAll least (skeletons (ofConditions leaf cs)) := by
  rw [skeletons_ofConditions_eq, Condition.branchingAll_iff, List.forall_mem_map]
  exact each

private theorem length_skeletons (cs : List (Condition α)) :
    (skeletons (ofConditions leaf cs)).length = cs.length := by
  rw [skeletons_ofConditions_eq, List.length_map]

/-- The tree of a condition has the operands of the condition. -/
theorem branching_skeleton (tests : ∀ a, (leaf a).skeleton = .test (leaf a)) {least : Nat}
    {c : Condition α} (branching : c.Branching least) :
    (ofCondition leaf c).skeleton.Branching least := by
  induction c using Condition.inductOn with
  | test a =>
      rw [ofCondition, tests]
      trivial
  | always => trivial
  | not c ih => exact ih branching
  | all cs ih | any cs ih =>
      rcases branching with ⟨enough, operands⟩
      rw [Condition.branchingAll_iff] at operands
      simp only [ofCondition, skeleton_and, skeleton_or, Condition.Branching, length_skeletons]
      exact ⟨enough, branchingAll_skeletons fun c member => ih c member (operands c member)⟩

end Tree

/-! ## Conditions -/

/-- If every node has an operand, and every state that is compared has counts for a grid of
some shape, the mask of a condition exists, has this shape, and shows at every cell the
verdict on the counts of that cell. -/
theorem Condition.mask_agrees_with_verdict {σ : Type} {c : Condition (CountTest σ)}
    (branching : c.Branching 1) {shape : List Nat} {counts : σ → Option (Grid Int)}
    (shaped : ∀ state grid, counts state = some grid → grid.shape = shape)
    (covered : ∀ test ∈ c.tests, (counts test.state).isSome) :
    (∃ mask, c.mask counts shape = .ok mask ∧
      mask.Agrees shape fun cell => c.verdict (countsAtCell counts cell)) ∧
    -- the same for a tree, whatever stands for the states, if the constant has room
    ∀ (memory : Nat) (state : σ → Tree) (given : Tree → Option (Grid Scalar)),
      (∀ test ∈ c.tests,
        given (state test.state) = (counts test.state).map (Grid.map Scalar.whole)) →
      storageFault? memory 1 shape = none →
      ∃ mask, (c.tree state).mask memory given (shape.map Int.ofNat) = .ok mask ∧
        mask.Agrees shape fun cell => (c.tree state).verdict (treesAtCell given cell) := by
  have known : ∀ test ∈ c.tests, ∃ grid, counts test.state = some grid ∧ grid.shape = shape := by
    intro test occurs
    rcases Option.isSome_iff_exists.mp (covered test occurs) with ⟨grid, found⟩
    exact ⟨grid, found, shaped _ _ found⟩
  constructor
  · apply exists_maskBy_agrees branching
    intro test occurs
    rcases known test occurs with ⟨grid, found, rfl⟩
    exact CountTest.mask_agrees found
  · intro memory state given same room
    rw [Tree.mask, Tree.everywhere_natural room]
    apply exists_maskBy_agrees (Tree.branching_skeleton (CountTest.skeleton_tree state) branching)
    intro tree occurs
    rcases Tree.mem_tests_skeleton (CountTest.skeleton_tree state) occurs with
      rfl | ⟨test, inCondition, rfl⟩
    · exact Tree.constant_agrees given shape
    · rcases known test inCondition with ⟨grid, found, rfl⟩
      apply CountTest.testMask_agrees
      rw [same test inCondition, found, Option.map_some]

/-- Two cells, of which the first has no neighbour in the only state and the second has two. -/
def pairCounts : Nat → Option (Grid Int)
  | 0 => some ⟨[2], #[0, 2], rfl⟩
  | _ => none

theorem Condition.mask_agrees_with_verdict_pair :
    let c : Condition (CountTest Nat) := .any [.not .always, .test ⟨.above, 0, 1⟩]
    c.Branching 1 ∧ (∀ test ∈ c.tests, (pairCounts test.state).isSome) ∧
      (∃ mask, c.mask pairCounts [2] = .ok mask ∧
        mask.Agrees [2] fun cell => c.verdict (countsAtCell pairCounts cell)) ∧
      storageFault? 2 1 [2] = none ∧
      ∃ mask, (c.tree numberTree).mask 2
          (fun _ => (pairCounts 0).map (Grid.map Scalar.whole)) [2] = .ok mask ∧
        mask.Agrees [2] fun cell => (c.tree numberTree).verdict
          (treesAtCell (fun _ => (pairCounts 0).map (Grid.map Scalar.whole)) cell) := by
  intro c
  have branching : c.Branching 1 := ⟨by decide, trivial, trivial, trivial⟩
  have shaped : ∀ state grid, pairCounts state = some grid → grid.shape = [2] := by
    intro state grid found
    cases state with
    | zero =>
        obtain rfl := Option.some.inj found
        rfl
    | succ state => cases found
  have single : ∀ test ∈ c.tests, test = ⟨.above, 0, 1⟩ := fun test occurs =>
    List.mem_singleton.mp occurs
  have covered : ∀ test ∈ c.tests, (pairCounts test.state).isSome := by
    intro test occurs
    rw [single test occurs]
    rfl
  have room : storageFault? 2 1 [2] = none := by decide
  rcases mask_agrees_with_verdict branching shaped covered with ⟨masked, trees⟩
  have given : ∀ test ∈ c.tests, (pairCounts 0).map (Grid.map Scalar.whole) =
      (pairCounts test.state).map (Grid.map Scalar.whole) := by
    intro test occurs
    rw [single test occurs]
  exact ⟨branching, covered, masked, room, trees 2 numberTree _ given room⟩

end Cellular
