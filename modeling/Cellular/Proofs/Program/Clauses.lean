import Cellular.Program.Basic
import Cellular.Proofs.Condition.Agreement

/-!
# Clauses that fire

A clause fires where its condition is true. Of the clauses of a state the first that
fires gives the next state, and if none fires the state stays. A program is closed if its
clauses cover all states and it speaks of no other states, and if its offsets and sizes
fit its rank. It is sound if also its conditions can be evaluated on a whole grid.
-/

namespace Cellular

/-- Whether a clause fires for the given counts. -/
def Clause.fires (counts : Nat → Int) (clause : Clause) : Bool :=
  clause.condition.value (CountTest.value counts)

/-- The target of the first clause that fires. -/
def firstFiring (counts : Nat → Int) (clauses : List Clause) : Option Nat :=
  (clauses.find? (Clause.fires counts)).map Clause.target

theorem firstTarget_eq (counts : Nat → Int) (clauses : List Clause) :
    firstTarget counts clauses = .ok (firstFiring counts clauses) := by
  induction clauses with
  | nil => rfl
  | cons clause rest ih =>
      rw [firstTarget, Condition.verdict_result, firstFiring, List.find?_cons, Clause.fires]
      cases clause.condition.value (CountTest.value counts) with
      | false => exact ih
      | true => rfl

/-- A rule by number that starts from a state and whose condition is true there. -/
def Rule.appliesTo (counts : Nat → Int) (state : Nat) (rule : Rule Nat) : Bool :=
  rule.source == state && rule.condition.value (CountTest.value counts)

theorem Rule.appliesTo_eq_true_iff {counts : Nat → Int} {state : Nat} {rule : Rule Nat} :
    rule.appliesTo counts state = true ↔
      rule.source = state ∧ rule.condition.Holds (CountTest.Holds counts) := by
  rw [appliesTo, Bool.and_eq_true, beq_iff_eq]
  exact and_congr_right fun _ =>
    Condition.value_eq_true_iff (fun test => CountTest.value_eq_true_iff counts test) _

/-- The clauses of a state fire as the rules that start from it. -/
theorem firstFiring_clausesOf (counts : Nat → Int) (rules : List (Rule Nat)) (state : Nat) :
    (firstFiring counts (clausesOf rules state)).getD state =
      ((rules.find? (Rule.appliesTo counts state)).map Rule.target).getD state := by
  have first : rules.find? (Rule.appliesTo counts state) =
      (rules.filter fun rule => rule.source == state).find? fun rule =>
        rule.condition.value (CountTest.value counts) := by
    rw [List.find?_filter]
    congr 1
    funext rule
    rw [Rule.appliesTo, Bool.decide_and, Bool.decide_eq_true, Bool.decide_eq_true]
  rw [first, clausesOf]
  split
  · rename_i none_own
    rw [none_own]
    rfl
  · rw [firstFiring, List.find?_map, Option.map_map]
    rfl

namespace Program

/-- A program that speaks of its own states and axes only. -/
structure Closed (program : Program) : Prop where
  /-- Every state has a list of clauses. -/
  covers : program.clauses.length = program.registry.states.length
  /-- Every clause leads to a state. -/
  target_lt : ∀ clauses ∈ program.clauses, ∀ clause ∈ clauses,
    clause.target < program.registry.states.length
  /-- Every test counts a state. -/
  test_lt : ∀ clauses ∈ program.clauses, ∀ clause ∈ clauses, ∀ test ∈ clause.condition.tests,
    test.state < program.registry.states.length
  /-- Beyond the edge lies a state, if anything. -/
  frame_lt : ∀ state, program.boundary.frame = some state →
    state < program.registry.states.length
  /-- Every offset has a coordinate for each axis. -/
  ranked : ∀ offset ∈ program.offsets, offset.length = program.rank
  /-- Every axis has its place in the list of sizes. -/
  sized : program.sizes.length = program.rank

/-- What compiled programs have in common. -/
structure Sound (program : Program) : Prop where
  /-- Every state has a list of clauses. -/
  covers : program.clauses.length = program.registry.states.length
  /-- Every node of a condition has operands. -/
  branching : ∀ clauses ∈ program.clauses, ∀ clause ∈ clauses, clause.condition.Branching 1
  /-- Every clause leads to a state. -/
  target_lt : ∀ clauses ∈ program.clauses, ∀ clause ∈ clauses,
    clause.target < program.registry.states.length
  /-- Every offset has a coordinate for each axis. -/
  ranked : ∀ offset ∈ program.offsets, offset.length = program.rank
  /-- Every axis has its place in the list of sizes. -/
  sized : program.sizes.length = program.rank

theorem Closed.sound {program : Program} (closed : program.Closed)
    (branching : ∀ clauses ∈ program.clauses, ∀ clause ∈ clauses, clause.condition.Branching 1) :
    program.Sound where
  covers := closed.covers
  branching := branching
  target_lt := closed.target_lt
  ranked := closed.ranked
  sized := closed.sized

/-- The state that follows on a state, by the counts around the cell. -/
def follower (program : Program) (counts : Nat → Int) (state : Nat) : Nat :=
  ((program.clauses[state]?).bind (firstFiring counts)).getD state

theorem Sound.clauses_eq_some {program : Program} (sound : program.Sound) {state : Nat}
    (declared : state < program.registry.states.length) :
    ∃ clauses ∈ program.clauses, program.clauses[state]? = some clauses := by
  rw [← sound.covers] at declared
  exact ⟨_, List.getElem_mem declared, List.getElem?_eq_getElem declared⟩

/-- The next state by the clauses of a state. -/
theorem transition_eq_of_row {program : Program} {state : Nat} {clauses : List Clause}
    (row : program.clauses[state]? = some clauses) (counts : Nat → Int) :
    program.transition state counts = .ok ((firstFiring counts clauses).getD state : Nat) := by
  have known : ((state : Int).toNat?.bind fun index => program.clauses[index]?) = some clauses :=
    row
  rw [transition, known]
  simp only [firstTarget_eq]
  cases firstFiring counts clauses <;> rfl

/-- The next state of a declared state always exists. -/
theorem Sound.transition_eq {program : Program} (sound : program.Sound) {state : Nat}
    (declared : state < program.registry.states.length) (counts : Nat → Int) :
    program.transition state counts = .ok (program.follower counts state) := by
  rcases sound.clauses_eq_some declared with ⟨clauses, _, found⟩
  rw [transition_eq_of_row found, follower, found, Option.bind_some]

theorem firstFiring_mem {counts : Nat → Int} {clauses : List Clause} {target : Nat}
    (fired : firstFiring counts clauses = some target) :
    ∃ clause ∈ clauses, clause.target = target := by
  rcases Option.map_eq_some_iff.mp fired with ⟨clause, found, rfl⟩
  exact ⟨clause, List.mem_of_find?_eq_some found, rfl⟩

/-- States lead to states. -/
theorem Sound.follower_lt {program : Program} (sound : program.Sound) {state : Nat}
    (declared : state < program.registry.states.length) (counts : Nat → Int) :
    program.follower counts state < program.registry.states.length := by
  rcases sound.clauses_eq_some declared with ⟨clauses, member, found⟩
  rw [follower, found, Option.bind_some]
  cases fired : firstFiring counts clauses with
  | none => exact declared
  | some target =>
      rcases firstFiring_mem fired with ⟨clause, inClauses, rfl⟩
      exact sound.target_lt clauses member clause inClauses

end Program

end Cellular
