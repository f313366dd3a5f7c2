import Cellular.Proofs.Condition.Truth

/-!
# Paths through a condition

A path leads from a condition through one operand of every node to a test. The depth of a
condition is read off its paths: it is one more than the greatest number of conjunctions
and disjunctions on any of them, as long as no node is without operands.
-/

namespace Cellular.Condition

variable {α : Type}

/-- A path through a condition meets so many conjunctions and disjunctions. -/
inductive HasPath : Condition α → Nat → Prop
  | test {a : α} : HasPath (.test a) 0
  | always : HasPath .always 0
  | not {c : Condition α} {nodes : Nat} (below : HasPath c nodes) : HasPath (.not c) nodes
  | all {cs : List (Condition α)} {c : Condition α} {nodes : Nat} (member : c ∈ cs)
      (below : HasPath c nodes) : HasPath (.all cs) (nodes + 1)
  | any {cs : List (Condition α)} {c : Condition α} {nodes : Nat} (member : c ∈ cs)
      (below : HasPath c nodes) : HasPath (.any cs) (nodes + 1)

theorem depth_le_depthList {c : Condition α} {cs : List (Condition α)} (member : c ∈ cs) :
    c.depth ≤ depthList cs := by
  induction cs with
  | nil => exact absurd member List.not_mem_nil
  | cons first cs ih =>
      rw [depthList]
      rcases List.mem_cons.mp member with rfl | member
      · exact Nat.le_max_left _ _
      · exact Nat.le_trans (ih member) (Nat.le_max_right _ _)

theorem HasPath.lt_depth {c : Condition α} {nodes : Nat} (path : c.HasPath nodes) :
    nodes < c.depth := by
  induction path with
  | test | always => exact one_le_depth _
  | not _ ih => exact ih
  | all member _ ih | any member _ ih =>
      rw [depth]
      exact Nat.succ_lt_succ (Nat.lt_of_lt_of_le ih (depth_le_depthList member))

/-- Some operand is as deep as the list of operands. -/
theorem exists_depth_eq {cs : List (Condition α)} (nonempty : 1 ≤ cs.length) :
    ∃ c ∈ cs, c.depth = depthList cs := by
  induction cs with
  | nil => exact absurd nonempty (Nat.not_succ_le_zero 0)
  | cons c cs ih =>
      rw [depthList]
      rcases Nat.lt_or_ge c.depth (depthList cs) with shallow | deep
      · have further : 1 ≤ cs.length := by
          cases cs with
          | nil => exact absurd shallow (Nat.not_lt_zero _)
          | cons second rest => exact Nat.succ_pos _
        rcases ih further with ⟨deepest, member, same⟩
        exact ⟨deepest, List.mem_cons_of_mem _ member,
          by rw [same, Nat.max_eq_right (Nat.le_of_lt shallow)]⟩
      · exact ⟨c, List.mem_cons_self, (Nat.max_eq_left deep).symm⟩

/-- If every node has an operand, some path is as long as the condition is deep. -/
theorem exists_hasPath {c : Condition α} (branching : c.Branching 1) :
    ∃ nodes, c.HasPath nodes ∧ c.depth = nodes + 1 := by
  induction c using inductOn with
  | test a => exact ⟨0, .test, rfl⟩
  | always => exact ⟨0, .always, rfl⟩
  | not c ih =>
      rcases ih branching with ⟨nodes, path, same⟩
      exact ⟨nodes, .not path, same⟩
  | all cs ih | any cs ih =>
      rcases branching with ⟨nonempty, operands⟩
      rcases exists_depth_eq nonempty with ⟨c, member, deepest⟩
      rcases ih c member (branchingAll_iff.mp operands c member) with ⟨nodes, path, same⟩
      refine ⟨nodes + 1, ?_, ?_⟩
      · constructor <;> assumption
      · rw [depth, ← deepest, same]

/-- The depth is bounded exactly if the number of nodes on every path is. -/
theorem depth_le_iff {c : Condition α} (branching : c.Branching 1) {most : Nat} :
    c.depth ≤ most + 1 ↔ ∀ nodes, c.HasPath nodes → nodes ≤ most := by
  constructor
  · intro bounded nodes path
    exact Nat.le_of_lt_succ (Nat.lt_of_lt_of_le path.lt_depth bounded)
  · intro bounded
    rcases exists_hasPath branching with ⟨nodes, path, same⟩
    rw [same]
    exact Nat.succ_le_succ (bounded nodes path)

end Cellular.Condition
