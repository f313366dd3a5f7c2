import Cellular.Condition.Evaluation

/-!
# Truth of conditions

A condition is true or false as soon as its tests are: what it says is read off the tree,
without an order of evaluation. This file gives the reading as a proposition and as a
truth value, and the induction on conditions in which all operands of a node satisfy the
hypothesis.
-/

namespace Cellular

/-! ## Tests -/

/-- What a comparison says about a count and a bound. -/
def Comparison.Relates : Comparison → (count bound : Int) → Prop
  | equal, count, bound => count = bound
  | unequal, count, bound => count ≠ bound
  | below, count, bound => count < bound
  | atMost, count, bound => count ≤ bound
  | above, count, bound => count > bound
  | atLeast, count, bound => count ≥ bound

theorem Comparison.holds_eq_true_iff (comparison : Comparison) (count bound : Int) :
    comparison.holds count bound = true ↔ comparison.Relates count bound := by
  cases comparison <;> simp [holds, Relates]

namespace CountTest

variable {σ : Type}

/-- What a test says about the given counts. -/
def Holds (counts : σ → Int) (test : CountTest σ) : Prop :=
  test.comparison.Relates (counts test.state) test.bound

/-- Whether a test is true for the given counts. -/
def value (counts : σ → Int) (test : CountTest σ) : Bool :=
  test.comparison.holds (counts test.state) test.bound

theorem value_eq_true_iff (counts : σ → Int) (test : CountTest σ) :
    test.value counts = true ↔ test.Holds counts :=
  Comparison.holds_eq_true_iff ..

end CountTest

namespace Condition

variable {α : Type}

/-! ## Induction -/

/-- Induction on a condition: a node inherits a property from all of its operands. -/
@[elab_as_elim]
theorem inductOn {motive : Condition α → Prop} (c : Condition α)
    (test : ∀ a, motive (.test a)) (always : motive .always)
    (not : ∀ c, motive c → motive (.not c))
    (all : ∀ cs, (∀ c ∈ cs, motive c) → motive (.all cs))
    (any : ∀ cs, (∀ c ∈ cs, motive c) → motive (.any cs)) : motive c := by
  refine Condition.rec (motive_1 := motive) (motive_2 := fun cs => ∀ c ∈ cs, motive c)
    test always not all any ?_ ?_ c
  · intro c member
    exact absurd member List.not_mem_nil
  · intro c cs first others
    exact List.forall_mem_cons.mpr ⟨first, others⟩

/-! ## What a condition says -/

mutual

/-- What a condition says, given what its tests say. -/
def Holds (leaf : α → Prop) : Condition α → Prop
  | .test a => leaf a
  | .always => True
  | .not c => ¬Holds leaf c
  | .all cs => HoldAll leaf cs
  | .any cs => HoldsAny leaf cs

/-- All operands of a list hold. -/
def HoldAll (leaf : α → Prop) : List (Condition α) → Prop
  | [] => True
  | c :: cs => Holds leaf c ∧ HoldAll leaf cs

/-- Some operand of a list holds. -/
def HoldsAny (leaf : α → Prop) : List (Condition α) → Prop
  | [] => False
  | c :: cs => Holds leaf c ∨ HoldsAny leaf cs

end

theorem holds_all_iff {leaf : α → Prop} {cs : List (Condition α)} :
    Holds leaf (.all cs) ↔ ∀ c ∈ cs, Holds leaf c := by
  rw [Holds]
  induction cs with
  | nil => simp [HoldAll]
  | cons c cs ih => rw [HoldAll, ih, List.forall_mem_cons]

theorem holds_any_iff {leaf : α → Prop} {cs : List (Condition α)} :
    Holds leaf (.any cs) ↔ ∃ c ∈ cs, Holds leaf c := by
  rw [Holds]
  induction cs with
  | nil => simp [HoldsAny]
  | cons c cs ih => simp only [HoldsAny, ih, List.mem_cons, exists_eq_or_imp]

/-! ## Truth values -/

mutual

/-- The truth value of a condition, given those of its tests. -/
def value (leaf : α → Bool) : Condition α → Bool
  | .test a => leaf a
  | .always => true
  | .not c => !value leaf c
  | .all cs => valueAll leaf cs
  | .any cs => valueAny leaf cs

/-- Whether all operands of a list are true. -/
def valueAll (leaf : α → Bool) : List (Condition α) → Bool
  | [] => true
  | c :: cs => value leaf c && valueAll leaf cs

/-- Whether some operand of a list is true. -/
def valueAny (leaf : α → Bool) : List (Condition α) → Bool
  | [] => false
  | c :: cs => value leaf c || valueAny leaf cs

end

theorem valueAll_eq (leaf : α → Bool) (cs : List (Condition α)) :
    valueAll leaf cs = cs.all (value leaf) := by
  induction cs with
  | nil => rfl
  | cons c cs ih => rw [valueAll, List.all_cons, ih]

theorem valueAny_eq (leaf : α → Bool) (cs : List (Condition α)) :
    valueAny leaf cs = cs.any (value leaf) := by
  induction cs with
  | nil => rfl
  | cons c cs ih => rw [valueAny, List.any_cons, ih]

/-- The truth value of a condition is true exactly if what the condition says is so. -/
theorem value_eq_true_iff {truth : α → Bool} {leaf : α → Prop}
    (agree : ∀ a, truth a = true ↔ leaf a) (c : Condition α) :
    c.value truth = true ↔ c.Holds leaf := by
  induction c using inductOn with
  | test a => exact agree a
  | always => simp [value, Holds]
  | not c ih => rw [value, Holds, ← ih, Bool.not_eq_true', Bool.not_eq_true]
  | all cs ih =>
      rw [value, valueAll_eq, holds_all_iff, List.all_eq_true]
      exact forall₂_congr ih
  | any cs ih =>
      rw [value, valueAny_eq, holds_any_iff, List.any_eq_true]
      exact exists_congr fun c => and_congr_right (ih c)

/-! ## Operands -/

theorem mem_testsList {a : α} {cs : List (Condition α)} :
    a ∈ testsList cs ↔ ∃ c ∈ cs, a ∈ c.tests := by
  induction cs with
  | nil => simp [testsList]
  | cons c cs ih => simp only [testsList, List.mem_append, ih, List.mem_cons, exists_eq_or_imp]

/-- Only the tests of a condition count for its truth value. -/
theorem value_congr {truth other : α → Bool} {c : Condition α}
    (same : ∀ a ∈ c.tests, truth a = other a) : c.value truth = c.value other := by
  have operands {cs : List (Condition α)} (same : ∀ a ∈ testsList cs, truth a = other a)
      (ih : ∀ c ∈ cs, (∀ a ∈ c.tests, truth a = other a) → c.value truth = c.value other) :
      cs.map (value truth) = cs.map (value other) := by
    apply List.map_congr_left
    intro c member
    exact ih c member fun a occurs => same a (mem_testsList.mpr ⟨c, member, occurs⟩)
  induction c using inductOn with
  | test a => exact same a (List.mem_singleton.mpr rfl)
  | always => rfl
  | not c ih => rw [value, value, ih same]
  | all cs ih =>
      have each := congrArg (List.all · id) (operands same ih)
      rw [value, value, valueAll_eq, valueAll_eq]
      rwa [List.all_map, List.all_map] at each
  | any cs ih =>
      have each := congrArg (List.any · id) (operands same ih)
      rw [value, value, valueAny_eq, valueAny_eq]
      rwa [List.any_map, List.any_map] at each

mutual

/-- Every conjunction and disjunction has at least so many operands. -/
def Branching (least : Nat) : Condition α → Prop
  | .test _ | .always => True
  | .not c => Branching least c
  | .all cs | .any cs => least ≤ cs.length ∧ BranchingAll least cs

/-- The same for every operand of a list. -/
def BranchingAll (least : Nat) : List (Condition α) → Prop
  | [] => True
  | c :: cs => Branching least c ∧ BranchingAll least cs

end

theorem branchingAll_iff {least : Nat} {cs : List (Condition α)} :
    BranchingAll least cs ↔ ∀ c ∈ cs, Branching least c := by
  induction cs with
  | nil => simp [BranchingAll]
  | cons c cs ih => rw [BranchingAll, ih, List.forall_mem_cons]

theorem Branching.mono {least fewer : Nat} (le : fewer ≤ least) {c : Condition α}
    (branching : c.Branching least) : c.Branching fewer := by
  induction c using inductOn with
  | test a => trivial
  | always => trivial
  | not c ih => exact ih branching
  | all cs ih | any cs ih =>
      rcases branching with ⟨enough, operands⟩
      rw [branchingAll_iff] at operands
      constructor
      · exact Nat.le_trans le enough
      · apply branchingAll_iff.mpr
        intro c member
        exact ih c member (operands c member)

end Condition

end Cellular
