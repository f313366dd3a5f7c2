import Cellular.Proofs.Engine.Step
import Cellular.Proofs.Program.Loading
import Cellular.Proofs.Validation.Renumbered

/-!
# Compiled programs with other numbers

If a program is compiled with other names and numbers for its states, the clauses of a state
come to stand in the row of its other number. They are the same clauses in the same order,
and they ask for the counts of the same states.
-/

namespace Cellular

/-- The clause with another number for each state. -/
def Clause.map (f : Nat → Nat) (clause : Clause) : Clause :=
  ⟨clause.condition.map (CountTest.map f), f clause.target⟩

/-- The same program with other names and numbers for its states. -/
structure Program.Renamed (rename : String → String) (first second : Program) : Prop where
  rank : second.rank = first.rank
  sizes : second.sizes = first.sizes
  offsets : second.offsets = first.offsets
  registry : first.registry.Renamed rename second.registry
  boundary : second.boundary =
    first.boundary.map (first.registry.renumber rename second.registry)
  closed : first.Closed
  covers : second.clauses.length = second.registry.states.length
  clauses : ∀ state < first.registry.states.length,
    second.clauses[first.registry.renumber rename second.registry state]? =
      (first.clauses[state]?).map
        (List.map (Clause.map (first.registry.renumber rename second.registry)))

/-! ## Compiling -/

section Compiling

variable {rename : String → String} {first second : Validated}

private theorem clausesOf_map {f : Nat → Nat} {rules others : List (Rule Nat)} {state : Nat}
    (same : (others.filter fun rule => rule.source == f state) =
      (rules.filter fun rule => rule.source == state).map (Rule.map f)) :
    clausesOf others (f state) = (clausesOf rules state).map (Clause.map f) := by
  rw [clausesOf, clausesOf, same]
  cases rules.filter fun rule => rule.source == state with
  | nil => rfl
  | cons rule rules =>
      rw [List.map_cons]
      dsimp only
      rw [← List.map_cons, List.map_map, List.map_map]
      rfl

theorem Validated.Renumbered.compile (renumbered : first.Renumbered rename second)
    (closed : first.compile.Closed) : first.compile.Renamed rename second.compile where
  rank := renumbered.rank
  sizes := renumbered.sizes
  offsets := renumbered.offsets
  registry := renumbered.registry
  boundary := renumbered.boundary
  closed := closed
  covers := by
    change ((List.range _).map _).length = _
    rw [List.length_map, List.length_range]
    rfl
  clauses := by
    intro state declared
    have own := Validated.getElem?_clauses_compile (renumbered.registry.renumber_lt declared)
    rw [Validated.getElem?_clauses_compile declared, Option.map_some]
    exact own.trans (congrArg some (clausesOf_map (renumbered.rules state declared)))

end Compiling

/-! ## The states that are counted -/

namespace Program

variable {rename : String → String} {first second : Program}

/-- Every row of clauses is the row of some state under its other number. -/
theorem Renamed.exists_row (renamed : first.Renamed rename second) {clauses : List Clause}
    (row : clauses ∈ second.clauses) :
    ∃ own ∈ first.clauses,
      clauses = own.map (Clause.map (first.registry.renumber rename second.registry)) := by
  rcases List.mem_iff_getElem?.mp row with ⟨number, found⟩
  have declared : number < second.registry.states.length :=
    renamed.covers ▸ (List.getElem?_eq_some_iff.mp found).1
  rcases renamed.registry.exists_renumber_eq declared with ⟨state, below, rfl⟩
  rw [renamed.clauses state below] at found
  rcases Option.map_eq_some_iff.mp found with ⟨own, known, rfl⟩
  exact ⟨own, List.mem_of_getElem? known, rfl⟩

theorem Renamed.map_mem_clauses (renamed : first.Renamed rename second) {clauses : List Clause}
    (row : clauses ∈ first.clauses) :
    clauses.map (Clause.map (first.registry.renumber rename second.registry)) ∈ second.clauses := by
  rcases List.mem_iff_getElem?.mp row with ⟨state, found⟩
  have declared : state < first.registry.states.length :=
    renamed.closed.covers ▸ (List.getElem?_eq_some_iff.mp found).1
  have found' := renamed.clauses state declared
  rw [found, Option.map_some] at found'
  exact List.mem_of_getElem? found'

/-- The states that are counted are the same. -/
theorem Renamed.mem_census_iff (renamed : first.Renamed rename second) {number : Nat} :
    number ∈ second.census ↔
      ∃ state ∈ first.census, first.registry.renumber rename second.registry state = number := by
  simp only [Program.mem_census_iff]
  constructor
  · rintro ⟨clauses, row, clause, member, test, occurs, rfl⟩
    rcases renamed.exists_row row with ⟨own, ownRow, rfl⟩
    rcases List.mem_map.mp member with ⟨before, inOwn, rfl⟩
    rw [Clause.map, Condition.tests_map] at occurs
    rcases List.mem_map.mp occurs with ⟨named, inBefore, rfl⟩
    exact ⟨named.state, ⟨own, ownRow, before, inOwn, named, inBefore, rfl⟩, rfl⟩
  · rintro ⟨state, ⟨clauses, row, clause, member, test, occurs, rfl⟩, rfl⟩
    refine ⟨_, renamed.map_mem_clauses row, _, List.mem_map_of_mem member,
      test.map (first.registry.renumber rename second.registry), ?_, rfl⟩
    rw [Clause.map, Condition.tests_map]
    exact List.mem_map_of_mem occurs

theorem Renamed.isEmpty_census (renamed : first.Renamed rename second) :
    second.census.isEmpty = first.census.isEmpty := by
  rw [Bool.eq_iff_iff, List.isEmpty_iff, List.isEmpty_iff, List.eq_nil_iff_forall_not_mem,
    List.eq_nil_iff_forall_not_mem]
  simp only [renamed.mem_census_iff]
  constructor
  · intro none state member
    exact none _ ⟨state, member, rfl⟩
  · rintro none number ⟨state, member, _⟩
    exact none state member

end Program

end Cellular
