import Cellular.Proofs.Engine.Prediction
import Cellular.Proofs.Source.Moved
import Cellular.Proofs.Source.RoundTrip
import Cellular.Proofs.Tree.Evaluation
import Cellular.Tree.Neighborhood

/-!
# Compiling and running trees

What comes out of validation is compiled and run without looking at it again. The tree of a
boundary is of a known kind, rules speak of states that have a number, and every node of their
conditions can be evaluated, at one cell and on a whole grid. So an engine of a compiled
program finds whatever it looks up.
-/

namespace Cellular

/-! ## Lookups -/

/-- What is known by number, looked up by the tree of the number. -/
def Tree.byNumber {α : Type} (known : Nat → Option α) : Tree → Option α
  | leaf (.whole n) => n.toNat?.bind known
  | _ => none

theorem Tree.byNumber_numberTree {α : Type} (known : Nat → Option α) (n : Nat) :
    byNumber known (numberTree n) = known n :=
  rfl

/-! ## Compiling -/

/-- All that compiling a validated program looks up in it is there. -/
structure Validated.Settled (program : Validated) : Prop where
  /-- The boundary is of a known kind. -/
  boundary : (program.boundary.tree numberTree).boundary = .ok (program.boundary.map numberTree)
  /-- What lies beyond the edge is a state, if anything. -/
  frame_lt : ∀ state, program.boundary.frame = some state →
    state < program.registry.states.length
  /-- Every rule belongs to a state. -/
  source_lt : ∀ rule ∈ program.rules, rule.source < program.registry.states.length
  /-- Every rule leads to a state. -/
  target_lt : ∀ rule ∈ program.rules, rule.target < program.registry.states.length
  /-- Every condition compares counts of states. -/
  compared : ∀ rule ∈ program.rules, ∃ states : List Nat,
    (rule.condition.tree numberTree).comparedStates = .ok (states.map numberTree) ∧
      ∀ state ∈ states, state < program.registry.states.length

theorem Boundary.boundary_tree {σ : Type} (state : σ → Tree) (edge : Boundary σ) :
    (edge.tree state).boundary = .ok (edge.map state) := by
  cases edge <;> rfl

/-- Accepted programs are settled. -/
theorem Parts.Accepted.settled {parts : Parts} {validated : Validated}
    (accepted : parts.Accepted validated) : validated.Settled where
  boundary := Boundary.boundary_tree numberTree validated.boundary
  frame_lt := accepted.closed.frame_lt
  source_lt := by
    intro resolved member
    rcases exists_of_mem_right accepted.rules_resolve member with ⟨rule, _, resolves⟩
    exact Registry.indexOf?_lt resolves.source
  target_lt := by
    intro resolved member
    rcases exists_of_mem_right accepted.rules_resolve member with ⟨rule, _, resolves⟩
    exact resolves.target_lt
  compared := by
    intro resolved member
    rcases exists_of_mem_right accepted.rules_resolve member with ⟨rule, _, resolves⟩
    refine ⟨resolved.condition.tests.map CountTest.state, ?_, ?_⟩
    · rw [Condition.comparedStates_tree, List.map_map]
      rfl
    · intro state occurs
      rcases List.mem_map.mp occurs with ⟨test, inTests, rfl⟩
      exact resolves.test_lt inTests

/-- The clauses of a loaded program are written. -/
theorem Loaded.written {source : String} {program : Program} {declarations : List Declaration}
    {parts : Parts} {validated : Validated}
    (loaded : Loaded source program declarations parts validated) :
    ∀ clauses ∈ program.clauses, ∀ clause ∈ clauses, clause.Written := by
  intro clauses row clause member
  rw [loaded.compiled] at row
  rcases Validated.clause_cases row member with ⟨always, _⟩ | ⟨resolved, inRules, rfl⟩
  · exact Or.inl always
  · rcases exists_of_mem_right loaded.accepted.rules_resolve inRules with ⟨rule, given, resolves⟩
    have branching := (loaded.readable_rules rule given).condition.branching
    exact Or.inr (resolves.condition.printable (branching.mono (by decide)))

/-! ## Running -/

/-- An engine with the given grids finds whatever it looks up. -/
structure Engine.Steady (engine : Engine) (buffers : Buffers) : Prop where
  /-- A step succeeds. -/
  step : ∃ next, engine.step = .ok next
  /-- During the step every clause has a mask, and its tree has the same one. -/
  mask : ∀ memory, storageFault? memory 1 buffers.current.shape = none →
    ∀ clauses ∈ engine.program.clauses, ∀ clause ∈ clauses, ∃ mask,
      clause.condition.mask
        ((engine.program.countGrids buffers.current engine.program.census).lookup ·)
        buffers.current.shape = .ok mask ∧
      (clause.condition.tree numberTree).mask memory
        (Tree.byNumber fun state =>
          ((engine.program.countGrids buffers.current engine.program.census).lookup state).map
            (Grid.map Scalar.whole))
        (buffers.current.shape.map Int.ofNat) = .ok mask
  /-- The next state of a cell is known and declared. -/
  next : ∀ cell, isCell cell buffers.current.shape →
    ∃ state < engine.program.registry.states.length,
      engine.nextState cell = .ok (engine.program.registry.nameOf state)
  /-- At a cell every clause has a verdict, and so has its tree. -/
  verdict : ∀ cell, ∀ clauses ∈ engine.program.clauses, ∀ clause ∈ clauses,
    ((clause.condition.tree numberTree).verdict (Tree.byNumber fun state =>
      some (.whole (engine.program.countsAt buffers.current cell state)))).result =
        .ok (clause.fires (engine.program.countsAt buffers.current cell))

/-- Engines of a sound program are steady if its clauses are written. -/
theorem Engine.Sound.steady {engine : Engine} (sound : engine.Sound)
    (written : ∀ clauses ∈ engine.program.clauses, ∀ clause ∈ clauses, clause.Written)
    {buffers : Buffers} (ready : engine.buffers = some buffers) : engine.Steady buffers where
  step := ⟨_, sound.step_eq ready⟩
  mask := by
    intro memory room clauses row clause member
    have buffered := sound.buffers buffers ready
    refine ⟨_, Program.mask_eq sound.program buffered.ranked row member, ?_⟩
    apply (written clauses row clause member).mask room
    intro test occurs
    rw [Tree.byNumber_numberTree, Program.lookup_countGrids, Option.map_some]
    · exact fun offset inOffsets =>
        (sound.program.ranked offset inOffsets).trans buffered.ranked.symm
    · exact Program.mem_census_iff.mpr ⟨clauses, row, clause, member, test, occurs, rfl⟩
  next := by
    intro cell inside
    have declared := (sound.buffers buffers ready).declared cell inside
    exact ⟨_, sound.program.follower_lt declared _, sound.nextState_eq ready inside⟩
  verdict := by
    intro cell clauses row clause member
    exact (written clauses row clause member).verdict fun _ => rfl

end Cellular
