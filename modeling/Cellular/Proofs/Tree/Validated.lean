import Cellular.Proofs.Source.RoundTrip
import Cellular.Proofs.Tree.Declarations
import Cellular.Proofs.Tree.Rules
import Cellular.Proofs.Tree.Shape
import Cellular.Proofs.Tree.States
import Cellular.Proofs.Validation.Acceptance

/-!
# Programs that were read, validated as trees

The tree of a program that can be read is validated like the program: it is accepted with the
same result, or rejected with the same problems in the same order, and never malformed. Stage
by stage both checks look at the same parts, also if other parts are missing or broken.
-/

namespace Cellular

/-- The validated program as it comes out of a tree, where names have no places. -/
def Validated.bare (program : Validated) : Validated :=
  { program with warnings := program.warnings.map Warning.bare }

/-- The space of an outline as it is checked in a tree. -/
def Outline.spaceTree (outline : Outline) : Option (Tree × List Tree) :=
  outline.environment.map fun (_, space) => (.whole space.rank, space.resolvedSizes.map sizeTree)

/-- The boundary of an outline as it is checked in a tree. -/
def Outline.edgeTree (outline : Outline) : Tree :=
  ((outline.checkEdge (registered outline)).2.getD (.static 0)).tree numberTree

/-- If an outline has room, so have the sizes of its axes. -/
theorem Outline.room_environment {memory : Nat} {outline : Outline}
    (room : outline.lengthFault? memory = none) {name : Name} {space : Environment}
    (spaced : outline.environment = some (name, space)) :
    Cellular.lengthFault? memory space.rank = none := by
  rw [lengthFault?, spaced] at room
  exact (Option.or_eq_none_iff.mp room).1

/-- If an outline has room, so has its neighbourhood, if that has no problems. -/
theorem Outline.room_neighborhood {memory : Nat} {outline : Outline}
    (room : outline.lengthFault? memory = none) {name key : Name} {space : Environment}
    {shape : Neighborhood} (spaced : outline.environment = some (name, space))
    (shaped : outline.neighborhood = some (key, shape)) (fine : shape.problems space.rank = []) :
    shape.lengthFault? memory space.rank = none := by
  rw [lengthFault?, spaced, shaped] at room
  have own := (Option.or_eq_none_iff.mp room).2
  simpa [fine] using own

namespace Tree

/-! ## Stages -/

/-- The offsets of the neighbourhood that counts, when there is one and the space is known. -/
def Slots.checkOffsets (memory : Nat) (slots : Slots) (space : Option (Tree × List Tree)) :
    Check (Option (List Tree)) :=
  match space, slots.find .neighborhood with
  | some (rank, _), some (key, value) => checkNeighborhood memory rank key value
  | _, _ => pure none

/-- The boundary that counts, with known states. -/
def Slots.checkEdge (slots : Slots) (registry : Option Registry) : Check Tree :=
  match slots.find .boundary, registry with
  | some (key, value), some registry => checkBoundary registry key value
  | _, _ => pure (node [word "VOID"])

/-- The rules that count, with known states. -/
def Slots.checkRules (slots : Slots) (registry : Option Registry) (most : Option Nat) :
    Check Rules :=
  match slots.find .rules, registry with
  | some (_, value), some registry => do
    let rules ← value.operands
    rules.foldlM (addRule registry most) {}
  | _, _ => pure {}

/-- The checked tree, if all its parts are there. -/
def assemble (space : Option (Tree × List Tree)) (offsets : Option (List Tree))
    (registry : Option Registry) (boundary : Tree) (checked : Rules) : Option CheckedTree :=
  match space, offsets, registry with
  | some (rank, sizes), some offsets, some registry =>
    some ⟨rank, sizes, offsets, boundary, registry, checked.rules, checked.warnings⟩
  | _, _, _ => none

section Checks

variable {β : Type} (memory : Nat) (slots : Slots)

private theorem checkOffsets_bind (space : Option (Tree × List Tree))
    (next : Option (List Tree) → Check β) :
    slots.checkOffsets memory space >>= next = (match space, slots.find .neighborhood with
      | some (rank, _), some (key, value) => checkNeighborhood memory rank key value >>= next
      | _, _ => pure none >>= next) := by
  rw [Slots.checkOffsets.eq_def]
  cases space <;> cases slots.find .neighborhood <;> rfl

private theorem checkEdge_bind (registry : Option Registry) (next : Tree → Check β) :
    slots.checkEdge registry >>= next = (match slots.find .boundary, registry with
      | some (key, value), some registry => checkBoundary registry key value >>= next
      | _, _ => pure (node [word "VOID"]) >>= next) := by
  rw [Slots.checkEdge.eq_def]
  cases slots.find .boundary <;> cases registry <;> rfl

private theorem checkRules_bind (registry : Option Registry) (most : Option Nat)
    (next : Rules → Check β) :
    slots.checkRules registry most >>= next = (match slots.find .rules, registry with
      | some (_, value), some registry =>
        liftM value.operands >>= fun rules => rules.foldlM (addRule registry most) {} >>= next
      | _, _ => pure {} >>= next) := by
  rw [Slots.checkRules.eq_def]
  cases slots.find .rules <;> cases registry <;> first | rfl | rw [bind_assoc]

private theorem pure_assemble (space : Option (Tree × List Tree)) (offsets : Option (List Tree))
    (registry : Option Registry) (boundary : Tree) (checked : Rules) :
    (pure (assemble space offsets registry boundary checked) : Check (Option CheckedTree)) =
      match space, offsets, registry with
      | some (rank, sizes), some offsets, some registry =>
        pure (some ⟨rank, sizes, offsets, boundary, registry, checked.rules, checked.warnings⟩)
      | _, _, _ => pure none := by
  cases space <;> cases offsets <;> cases registry <;> rfl

/-- A check goes through its stages in turn, and each of them looks at what the earlier ones
gave. -/
theorem check_eq (tree : Tree) : tree.check memory = (do
    let slots ← collect (← tree.parts)
    let space ← (slots.find .environment).mapM fun (_, value) => checkEnvironment memory value
    let offsets ← slots.checkOffsets memory space
    let registry ← (slots.find .states).mapM fun (_, value) => checkStates value
    let boundary ← slots.checkEdge registry
    let checked ← slots.checkRules registry (offsets.map List.length)
    return assemble space offsets registry boundary checked) := by
  simp only [checkOffsets_bind, checkEdge_bind, checkRules_bind, pure_assemble]
  rfl

end Checks

section Stages

variable {memory : Nat} {slots : Slots} {outline : Outline} (shows : slots.Shows outline)

include shows

theorem environment_stage
    (small : ∀ name space, outline.environment = some (name, space) → space.rank ≤ 3)
    (room : outline.lengthFault? memory = none) :
    Finds ((slots.find .environment).mapM fun (_, value) => checkEnvironment memory value)
      ((outline.environment.map fun (_, space) => space.problems).getD []) outline.spaceTree := by
  rw [shows, Outline.entry, Outline.spaceTree]
  cases known : outline.environment with
  | none => exact Finds.nothing none
  | some entry =>
      have spacious := Outline.room_environment room known
      exact (checkEnvironment_tree (small entry.1 entry.2 known) spacious).returning some

theorem neighborhood_stage
    (small : ∀ name space, outline.environment = some (name, space) → space.rank ≤ 3)
    (room : outline.lengthFault? memory = none) {problems : List Problem}
    {offsets : Option (List Vec)} (done : outline.checkOffsets = .ok (problems, offsets)) :
    Finds (slots.checkOffsets memory outline.spaceTree) problems
      (offsets.map (List.map ofVec)) := by
  rcases outline with ⟨environment, neighborhood, _, _, _⟩
  rw [Slots.checkOffsets.eq_def, shows]
  cases environment with
  | none =>
      rcases Prod.mk.inj (Except.ok.inj done) with ⟨rfl, rfl⟩
      exact Finds.nothing none
  | some entry =>
      cases neighborhood with
      | none =>
          rcases Prod.mk.inj (Except.ok.inj done) with ⟨rfl, rfl⟩
          exact Finds.nothing none
      | some assigned =>
          apply checkNeighborhood_tree (small entry.1 entry.2 rfl) done
          exact Outline.room_neighborhood room rfl rfl

theorem states_stage :
    Finds ((slots.find .states).mapM fun (_, value) => checkStates value)
      (((outline.states.map fun (_, entries) => Cellular.checkStates entries).map
        OpenRegistry.problems).getD []) (registered outline) := by
  rw [shows, Outline.entry, registered]
  cases outline.states with
  | none => exact Finds.nothing none
  | some entry => exact (checkStates_tree entry.2).returning some

theorem boundary_stage :
    Finds (slots.checkEdge (registered outline)) (outline.checkEdge (registered outline)).1
      outline.edgeTree := by
  rw [Outline.edgeTree]
  generalize registered outline = registry
  rcases outline with ⟨_, _, _, _, boundary⟩
  rw [Slots.checkEdge.eq_def, shows]
  cases boundary with
  | none => exact Finds.nothing _
  | some entry =>
      cases registry with
      | none => exact Finds.nothing _
      | some registry => exact checkBoundary_tree registry entry.1 entry.2

theorem rules_stage
    (printable : ∀ key rules, outline.rules = some (key, rules) →
      ∀ rule ∈ rules, rule.condition.Printable)
    {registry : Option Registry} {most : Option Nat} {checked : CheckedRules}
    (done : outline.checkRules registry most = .ok checked) :
    Finds (slots.checkRules registry most)
      checked.problems
      ⟨checked.rules.map (Rule.tree numberTree), checked.warnings.map Warning.bare⟩ := by
  rcases outline with ⟨_, _, _, rules, _⟩
  rw [Slots.checkRules.eq_def, shows]
  cases rules with
  | none =>
      obtain rfl := Except.ok.inj done
      exact Finds.nothing _
  | some entry =>
      cases registry with
      | none =>
          obtain rfl := Except.ok.inj done
          exact Finds.nothing _
      | some registry =>
          exact Finds.after rfl (foldlM_addRule (printable entry.1 entry.2 rfl) done {})

end Stages

/-! ## The whole check -/

section Verdict

variable {memory : Nat} {tree : Tree}

theorem validate_of_nothing {checked : CheckedTree}
    (finds : Finds (tree.check memory) [] (some checked)) : tree.validate memory = .ok checked := by
  rw [validate, finds []]
  rfl

theorem validate_of_found {found : List Problem} {answer : Option CheckedTree}
    (finds : Finds (tree.check memory) found answer) (some_found : found ≠ []) :
    tree.validate memory = .error (.rejected (found.map Problem.bare)) := by
  rw [validate, finds [], List.nil_append]
  cases found with
  | nil => exact absurd rfl some_found
  | cons problem rest => cases answer <;> rfl

end Verdict

section Whole

variable {memory : Nat} {program : List Declaration}
  (readable : ∀ declaration ∈ program, declaration.Readable)

include readable

theorem rank_le_three {name : Name} {space : Environment}
    (spaced : (Outline.ofProgram program).1.environment = some (name, space)) : space.rank ≤ 3 := by
  have slot : (Outline.ofProgram program).1.slot .environment = some (.environment space) := by
    rw [Outline.slot, spaced]
    rfl
  have value : space.Readable := Outline.readable_slot readable slot
  have rank := value.rank
  omega

section Findings

variable {shapeProblems : List Problem} {offsets : Option (List Vec)} {checked : CheckedRules}
  (room : (Outline.ofProgram program).1.lengthFault? memory = none)
  (shaped : (Outline.ofProgram program).1.checkOffsets = .ok (shapeProblems, offsets))
  (ruled : (Outline.ofProgram program).1.checkRules (registered (Outline.ofProgram program).1)
    (offsets.map List.length) = .ok checked)

include room shaped ruled

/-- What a check of the tree finds out: every problem in its place, and a checked tree if all
parts are there. -/
theorem finds_check :
    Finds (check memory (programTree Name.word program))
      (collected program shapeProblems checked.problems)
      (assemble (Outline.ofProgram program).1.spaceTree (offsets.map (List.map ofVec))
        (registered (Outline.ofProgram program).1) (Outline.ofProgram program).1.edgeTree
        ⟨checked.rules.map (Rule.tree numberTree), checked.warnings.map Warning.bare⟩) := by
  rcases collect_tree program with ⟨slots, known, shows⟩
  have small := fun name space spaced => @rank_le_three _ readable name space spaced
  have printable : ∀ key rules, (Outline.ofProgram program).1.rules = some (key, rules) →
      ∀ rule ∈ rules, rule.condition.Printable := fun key rules given rule member =>
    (Outline.readable_rules readable given rule member).condition.printable
  have sameLength : (offsets.map (List.map ofVec)).map List.length = offsets.map List.length := by
    cases offsets <;> simp
  rw [check_eq, collected]
  simp only [List.append_assoc]
  rw [← List.append_assoc]
  apply Finds.after rfl
  apply known.bind
  apply (environment_stage shows small room).bind
  apply (neighborhood_stage shows small room shaped).bind
  apply (states_stage shows).bind
  apply (boundary_stage shows).bind
  rw [sameLength]
  exact (rules_stage shows printable ruled).returning _

/-- What is validated comes out of the tree. -/
private theorem validate_of_validated {validated : Validated}
    (done : Cellular.validate program = .ok validated) :
    (programTree Name.word program).validate memory = .ok validated.bare.tree := by
  have finds := finds_check readable room shaped ruled
  rw [registered] at ruled
  simp only [Cellular.validate, shaped, ruled, bind, Except.bind, Except.mapError] at done
  split at done
  · rename_i clean spaced known edged
    obtain rfl := Except.ok.inj done
    have clean : collected program shapeProblems checked.problems = [] := clean
    have known : registered (Outline.ofProgram program).1 = some _ := known
    have edge : (Outline.ofProgram program).1.edgeTree = _ :=
      congrArg (fun edge => (edge.getD (.static 0)).tree numberTree) edged
    rw [clean, Outline.spaceTree, spaced, known, edge] at finds
    exact validate_of_nothing finds
  · cases done

end Findings

/-- The tree of a program that can be read is accepted with the same result as the program, or
rejected with the same problems, if there is room for its neighbourhood. -/
theorem validate_programTree (room : (Outline.ofProgram program).1.lengthFault? memory = none) :
    (∃ validated, Cellular.validate program = .ok validated ∧
      (programTree Name.word program).validate memory = .ok validated.bare.tree) ∨
    ∃ problems, problems ≠ [] ∧ Cellular.validate program = .error (.rejected problems) ∧
      (programTree Name.word program).validate memory =
        .error (.rejected (problems.map Problem.bare)) := by
  rcases Outline.exists_checkOffsets readable with ⟨shapeProblems, offsets, shaped⟩
  rcases Outline.exists_checkRules readable (registered (Outline.ofProgram program).1)
    (offsets.map List.length) with ⟨checked, ruled⟩
  by_cases clean : collected program shapeProblems checked.problems = []
  · left
    rcases exists_validated_of_clean readable shaped ruled clean with ⟨validated, done⟩
    exact ⟨validated, done, validate_of_validated readable room shaped ruled done⟩
  · right
    exact ⟨_, clean, validate_of_problems shaped ruled clean,
      validate_of_found (finds_check readable room shaped ruled) clean⟩

end Whole

end Tree

end Cellular
