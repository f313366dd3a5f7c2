import Cellular.Proofs.Engine.Start

/-!
# What refused starts report

A start is refused with a report, unless the report shows a number that is too long to be
written. All that a report can show are numbers that were given for the start, the rank of the
program, the extents of the grid, and numbers of cells of it.
-/

namespace Cellular

/-- The numbers that can be in the report of a start with the given extents and states. -/
inductive Program.Reports (program : Program) (dimensions : Option (List Scalar))
    (initial : Option (Table Vec String)) : Int → Prop
  | extent {extents : List Scalar} {n : Int} (given : extents ∈ dimensions)
      (member : .whole n ∈ extents) : Reports program dimensions initial n
  | extents {extents : List Scalar} (given : extents ∈ dimensions) :
      Reports program dimensions initial extents.length
  | rank : Reports program dimensions initial program.rank
  | coordinate {table : Table Vec String} {entry : Vec × String} {n : Int}
      (given : table ∈ initial) (member : entry ∈ table.entries) (component : n ∈ entry.1) :
      Reports program dimensions initial n
  | axis {shape : List Nat} {n : Nat} (resolved : program.resolveDimensions dimensions = .ok shape)
      (member : n ∈ shape) : Reports program dimensions initial n
  | axes {shape : List Nat} (resolved : program.resolveDimensions dimensions = .ok shape) :
      Reports program dimensions initial shape.length
  | cells {shape : List Nat} {count : Nat}
      (resolved : program.resolveDimensions dimensions = .ok shape)
      (among : count ≤ cellCount shape) : Reports program dimensions initial count

theorem Scalar.number?_eq_some_iff {extent : Scalar} {n : Int} :
    extent.number? = some n ↔ extent = .whole n := by
  cases extent <;> simp [number?]

theorem Grid.count_le {α : Type} (grid : Grid α) (p : α → Bool) :
    grid.count p ≤ cellCount grid.shape :=
  grid.size_eq ▸ Array.countP_le_size

namespace Program

variable {program : Program} {dimensions : Option (List Scalar)}
  {initial : Option (Table Vec String)} {refusal : Refusal}

theorem exists_fault_of_resolveDimensions
    (refused : program.resolveDimensions dimensions = .error refusal) :
    ∃ fault : ConfigurationFault, refusal = fault.refusal ∧
      ∀ n ∈ fault.numbers, program.Reports dimensions initial n := by
  cases dimensions with
  | none =>
      simp only [resolveDimensions] at refused
      split at refused
      · cases refused
      · exact ⟨_, (Except.error.inj refused).symm, nofun⟩
  | some extents =>
      simp only [resolveDimensions] at refused
      split at refused
      · refine ⟨_, (Except.error.inj refused).symm, fun n member => ?_⟩
        rcases List.mem_pair.mp member with rfl | rfl
        · exact .extents rfl
        · exact .rank
      · split at refused
        · cases refused
        · refine ⟨_, (Except.error.inj refused).symm, fun n member => ?_⟩
          rcases List.mem_filterMap.mp member with ⟨extent, own, known⟩
          exact .extent rfl (Scalar.number?_eq_some_iff.mp known ▸ own)

theorem exists_fault_of_newShape (refused : program.newShape dimensions initial = .error refusal) :
    ∃ fault : ConfigurationFault, refusal = fault.refusal ∧
      ∀ n ∈ fault.numbers, program.Reports dimensions initial n := by
  rw [newShape, bind_eq_error_iff] at refused
  rcases refused with unresolved | ⟨shape, _, refused⟩
  · exact exists_fault_of_resolveDimensions unresolved
  · split at refused
    · exact ⟨_, (Except.error.inj refused).symm, fun _ member => absurd member List.not_mem_nil⟩
    · cases refused

/-- A refused coordinate is reported with the extents of the grid or their number. -/
theorem mem_numbers_absence {cell : Vec} {shape : List Nat} {n : Int}
    (member : n ∈ (absence cell shape).numbers) :
    n ∈ cell ∨ n = shape.length ∨ ∃ extent ∈ shape, n = (extent : Int) := by
  rw [absence] at member
  split at member
  · rcases List.mem_append.mp member with own | other
    · exact Or.inl own
    · exact Or.inr (Or.inl (List.mem_singleton.mp other))
  · rcases List.mem_append.mp member with own | other
    · exact Or.inl own
    · rcases List.mem_map.mp other with ⟨extent, own, rfl⟩
      exact Or.inr (Or.inr ⟨extent, own, rfl⟩)

/-- An entry that cannot be placed is reported with its coordinate. -/
theorem exists_fault_of_place {grid : Grid (Option Nat)} {entry : Vec × String}
    (refused : program.place grid entry = .error refusal) :
    ∃ fault : ConfigurationFault, refusal = fault.refusal ∧ ∀ n ∈ fault.numbers,
      n ∈ entry.1 ∨ n = grid.shape.length ∨ ∃ extent ∈ grid.shape, n = (extent : Int) := by
  rw [place, bind_eq_error_iff, Grid.extents, checkCoordinate_eq] at refused
  rcases refused with absent | ⟨cell, found, refused⟩
  · split at absent
    · cases absent
    · exact ⟨_, (Except.error.inj absent).symm, fun n member => mem_numbers_absence member⟩
  · split at found
    · obtain rfl := Except.ok.inj found
      split at refused
      · cases refused
      · exact ⟨_, (Except.error.inj refused).symm, fun n member => Or.inl member⟩
    · cases found

/-- If the entries cannot all be placed, one of them cannot. -/
theorem exists_place_eq_error {entries : List (Vec × String)} {grid : Grid (Option Nat)}
    (refused : entries.foldlM program.place grid = .error refusal) :
    ∃ entry ∈ entries, ∃ partly : Grid (Option Nat), partly.shape = grid.shape ∧
      program.place partly entry = .error refusal := by
  induction entries generalizing grid with
  | nil => cases refused
  | cons entry entries ih =>
      rw [List.foldlM_cons, bind_eq_error_iff] at refused
      rcases refused with own | ⟨next, placed, refused⟩
      · exact ⟨entry, List.mem_cons_self, grid, rfl, own⟩
      · rcases ih refused with ⟨other, member, partly, same, failed⟩
        rcases place_eq_ok_iff.mp placed with ⟨_, _, _, rfl⟩
        exact ⟨other, List.mem_cons_of_mem _ member, partly, same, failed⟩

theorem shape_of_foldlM_place {entries : List (Vec × String)} {grid last : Grid (Option Nat)}
    (placed : entries.foldlM program.place grid = .ok last) : last.shape = grid.shape := by
  induction entries generalizing grid with
  | nil =>
      obtain rfl := pure_eq_ok_iff.mp placed
      rfl
  | cons entry entries ih =>
      rw [List.foldlM_cons, bind_eq_ok_iff] at placed
      rcases placed with ⟨next, first, placed⟩
      rcases place_eq_ok_iff.mp first with ⟨_, _, _, rfl⟩
      exact (ih placed).trans rfl

/-- A start is refused for a fault, and the report shows nothing else. -/
theorem exists_fault_of_initialGrid
    (refused : program.initialGrid dimensions initial = .error refusal) :
    ∃ fault : ConfigurationFault, refusal = fault.refusal ∧
      ∀ n ∈ fault.numbers, program.Reports dimensions initial n := by
  rcases bind_eq_error_iff.mp refused with unshaped | ⟨shape, shaped, refused⟩
  · exact exists_fault_of_newShape unshaped
  have resolved := (newShape_eq_ok_iff.mp shaped).1
  rcases bind_eq_error_iff.mp refused with unplaced | ⟨last, placed, refused⟩
  · rcases exists_place_eq_error unplaced with ⟨entry, member, partly, same, failed⟩
    have same : partly.shape = shape := same
    rcases exists_fault_of_place failed with ⟨fault, rfl, shown⟩
    refine ⟨fault, rfl, fun n occurs => ?_⟩
    rcases shown n occurs with component | rfl | ⟨extent, own, rfl⟩
    · cases initial with
      | none => exact absurd member List.not_mem_nil
      | some table => exact .coordinate rfl member component
    · exact same ▸ .axes resolved
    · exact .axis resolved (same ▸ own)
  · split at refused
    · cases refused
    · refine ⟨_, (Except.error.inj refused).symm, fun n member => ?_⟩
      obtain rfl := List.mem_singleton.mp member
      have same : last.shape = shape := shape_of_foldlM_place placed
      exact .cells resolved (same ▸ last.count_le _)

end Program

end Cellular
