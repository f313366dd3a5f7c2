import Cellular.Program.Load
import Cellular.Proofs.Program.Clauses
import Cellular.Proofs.Source.Readable
import Cellular.Proofs.Space.Offsets
import Cellular.Proofs.Validation.Accepted
import Cellular.Proofs.Validation.Rules
import Cellular.Proofs.Validation.States

/-!
# Loaded programs

A program that is loaded was read, accepted and compiled. From what the reader and the
checks leave follows all that running it depends on: loaded programs are sound.
-/

namespace Cellular

/-- How a loaded program came about. -/
structure Loaded (source : String) (program : Program) (declarations : List Declaration)
    (parts : Parts) (validated : Validated) : Prop where
  read : readProgram source = .ok declarations
  divided : Parts.ofProgram? declarations = some parts
  accepted : parts.Accepted validated
  compiled : program = validated.compile

theorem load_eq_ok_iff {source : String} {program : Program} :
    load source = .ok program ↔ ∃ declarations validated,
      readProgram source = .ok declarations ∧ validate declarations = .ok validated ∧
        program = validated.compile := by
  simp only [load, readValidated, bind_eq_ok_iff, mapError_eq_ok_iff, pure_eq_ok_iff]
  constructor
  · rintro ⟨validated, ⟨declarations, read, accepted⟩, compiled⟩
    exact ⟨declarations, validated, read, accepted, compiled.symm⟩
  · rintro ⟨declarations, validated, read, accepted, compiled⟩
    exact ⟨validated, ⟨declarations, read, accepted⟩, compiled.symm⟩

theorem loaded_of_load {source : String} {program : Program} (done : load source = .ok program) :
    ∃ declarations parts validated, Loaded source program declarations parts validated := by
  rcases load_eq_ok_iff.mp done with ⟨declarations, validated, read, accepted, compiled⟩
  rcases accepted_of_validate accepted with ⟨parts, known, passes⟩
  exact ⟨declarations, parts, validated, read, known, passes, compiled⟩

/-! ## Neighbourhoods -/

private theorem axes_lt_of_axesNamed {rank : Nat} {rule : OffsetRule} {named : List Nat}
    (exist : axesNamed rank rule.axis = some named) {axes : List Nat}
    (known : rule.axes rank = .ok axes) : ∀ axis ∈ axes, axis < rank := by
  rw [axesNamed] at exist
  rw [OffsetRule.axes] at known
  by_cases every : rule.axis.text = everyAxis
  · rw [if_pos every] at known
    obtain rfl := Except.ok.inj known
    exact fun axis member => List.mem_range.mp member
  · rw [if_neg every] at exist known
    cases isIndex : axisIndex? rule.axis.text with
    | none => simp [isIndex] at exist
    | some index =>
        simp only [isIndex] at exist known
        obtain rfl := Except.ok.inj known
        split at exist
        · rename_i below
          intro axis member
          rwa [List.mem_singleton.mp member]
        · exact absurd exist (by simp)

private theorem axes_lt_of_clean {rank : Nat} {rule : OffsetRule}
    (clean : rule.problems rank = []) {axes : List Nat} (known : rule.axes rank = .ok axes) :
    ∀ axis ∈ axes, axis < rank := by
  rcases List.append_eq_nil_iff.mp clean with ⟨exists_axis, _⟩
  cases exist : axesNamed rank rule.axis with
  | none => exact absurd exists_axis (by simp [exist])
  | some named => exact axes_lt_of_axesNamed exist known

/-- The offsets of an accepted program are the vectors that its neighbourhood describes. -/
theorem Parts.Accepted.mem_offsets_iff {parts : Parts} {validated : Validated}
    (accepted : parts.Accepted validated) {v : Vec} :
    v ∈ validated.offsets ↔ parts.shape.Describes validated.rank v := by
  apply Neighborhood.mem_offsets_iff accepted.offsets
  intro rules custom rule member axes known
  have clean := accepted.shape
  rw [custom, Neighborhood.problems, List.flatMap_eq_nil_iff] at clean
  exact axes_lt_of_clean (clean rule member) known

/-! ## Sizes -/

theorem Environment.length_resolvedSizes (space : Environment) :
    space.resolvedSizes.length = space.rank := by
  rw [resolvedSizes, length_foldl, List.length_replicate]
  rintro sizes ⟨axis, size⟩
  by_cases fine : (sizeProblem space.rank axis size).isEmpty = true
  · simp only [if_pos fine]
    exact length_foldl (fun _ _ => List.length_set) _ sizes
  · simp only [if_neg fine]

/-! ## Compiled programs -/

theorem Validated.getElem?_clauses_compile {validated : Validated} {state : Nat}
    (declared : state < validated.registry.states.length) :
    validated.compile.clauses[state]? = some (clausesOf validated.rules state) := by
  change ((List.range _).map _)[state]? = _
  rw [List.getElem?_map, List.getElem?_range declared]
  rfl

/-- Every clause comes from a rule, or it keeps the state of its row. -/
theorem Validated.clause_cases {validated : Validated} {clauses : List Clause}
    (row : clauses ∈ validated.compile.clauses) {clause : Clause} (member : clause ∈ clauses) :
    clause.condition = .always ∧ clause.target < validated.registry.states.length ∨
      ∃ rule ∈ validated.rules, clause = ⟨rule.condition, rule.target⟩ := by
  rcases List.mem_map.mp row with ⟨state, declared, rfl⟩
  rw [clausesOf] at member
  split at member
  · obtain rfl := List.mem_singleton.mp member
    exact Or.inl ⟨rfl, List.mem_range.mp declared⟩
  · rcases List.mem_map.mp member with ⟨rule, own, rfl⟩
    exact Or.inr ⟨rule, (List.mem_filter.mp own).1, rfl⟩

theorem Boundary.frame_lt_of_check {registry : Registry} {key : Name}
    {edge : Boundary (Option Name)} {boundary : Boundary Nat}
    (done : checkBoundary registry key edge = ([], some boundary)) {state : Nat}
    (known : boundary.frame = some state) : state < registry.states.length := by
  unfold checkBoundary at done
  split at done
  · obtain rfl := Option.some.inj (Prod.mk.inj done).2
    exact absurd known nofun
  · obtain rfl := Option.some.inj (Prod.mk.inj done).2
    exact absurd known nofun
  · split at done
    · rename_i default isDefault
      obtain rfl := Option.some.inj (Prod.mk.inj done).2
      obtain rfl := Option.some.inj known
      exact Registry.default?_lt isDefault
    · exact absurd (Prod.mk.inj done).2 nofun
  · split at done
    · rename_i index isIndex
      obtain rfl := Option.some.inj (Prod.mk.inj done).2
      obtain rfl := Option.some.inj known
      exact Registry.indexOf?_lt isIndex
    · exact absurd (Prod.mk.inj done).2 nofun

namespace Parts.Accepted

variable {parts : Parts} {validated : Validated}

/-- No two states of an accepted program have one name. -/
theorem distinct (accepted : parts.Accepted validated) : validated.registry.names.Nodup := by
  rw [accepted.registry]
  exact distinct_checkStates parts.entries

theorem rules_resolve (accepted : parts.Accepted validated) :
    List.Forall₂ (Rule.ResolvesTo validated.registry (some validated.offsets.length))
      parts.rules validated.rules :=
  resolvesTo_of_checkRules accepted.rules

/-- An accepted program speaks of its own states only. -/
theorem closed (accepted : parts.Accepted validated) : validated.compile.Closed where
  covers := by
    change ((List.range _).map _).length = _
    rw [List.length_map, List.length_range]
    rfl
  target_lt := by
    intro clauses row clause member
    rcases Validated.clause_cases row member with ⟨_, below⟩ | ⟨resolved, inRules, rfl⟩
    · exact below
    · rcases exists_of_mem_right accepted.rules_resolve inRules with ⟨rule, _, resolves⟩
      exact resolves.target_lt
  test_lt := by
    intro clauses row clause member test occurs
    rcases Validated.clause_cases row member with ⟨always, _⟩ | ⟨resolved, inRules, rfl⟩
    · rw [always] at occurs
      exact absurd occurs List.not_mem_nil
    · rcases exists_of_mem_right accepted.rules_resolve inRules with ⟨rule, _, resolves⟩
      exact resolves.test_lt occurs
  frame_lt := fun state known =>
    Boundary.frame_lt_of_check (accepted.boundary ⟨"", none⟩) known
  ranked := by
    intro offset member
    exact Neighborhood.length_of_describes (accepted.mem_offsets_iff.mp member)
  sized := by
    change validated.sizes.length = validated.rank
    rw [accepted.sizes, accepted.rank, Environment.length_resolvedSizes]

/-- If every node of a condition has operands, an accepted program is sound. -/
theorem sound (accepted : parts.Accepted validated)
    (branching : ∀ rule ∈ parts.rules, rule.condition.Branching 1) : validated.compile.Sound := by
  apply accepted.closed.sound
  intro clauses row clause member
  rcases Validated.clause_cases row member with ⟨always, _⟩ | ⟨resolved, inRules, rfl⟩
  · rw [always]
    trivial
  · rcases exists_of_mem_right accepted.rules_resolve inRules with ⟨rule, given, resolves⟩
    exact resolves.condition.branching (branching rule given)

end Parts.Accepted

/-! ## Soundness -/

namespace Loaded

variable {source : String} {program : Program} {declarations : List Declaration} {parts : Parts}
  {validated : Validated}

theorem readable_value (loaded : Loaded source program declarations parts validated) {key : Key}
    {value : Value} (assigned : valueOf declarations key = some value) : value.Readable := by
  rcases Option.map_eq_some_iff.mp assigned with ⟨declaration, found, rfl⟩
  exact (readable_of_readProgram loaded.read declaration (List.mem_of_find?_eq_some found)).value

theorem readable_rules (loaded : Loaded source program declarations parts validated) :
    ∀ rule ∈ parts.rules, rule.Readable := by
  rcases Parts.ofProgram?_eq_some_iff.mp loaded.divided with ⟨_, _, _, ruled, _⟩
  exact loaded.readable_value ruled

theorem readable_entries (loaded : Loaded source program declarations parts validated) :
    ∀ entry ∈ parts.entries, entry.Readable := by
  rcases Parts.ofProgram?_eq_some_iff.mp loaded.divided with ⟨_, _, stated, _, _⟩
  have readable : parts.entries ≠ [] ∧ StatesReadable parts.entries := loaded.readable_value stated
  exact readable.2.each

theorem registry_eq (loaded : Loaded source program declarations parts validated) :
    program.registry = validated.registry := by
  rw [loaded.compiled]
  rfl

theorem clauses_eq (loaded : Loaded source program declarations parts validated) :
    program.clauses =
      (List.range program.registry.states.length).map (clausesOf validated.rules) := by
  rw [loaded.compiled]
  rfl

theorem offsets_eq (loaded : Loaded source program declarations parts validated) :
    parts.shape.offsets parts.space.rank = .ok program.offsets := by
  rw [loaded.compiled, ← loaded.accepted.rank]
  exact loaded.accepted.offsets

/-- Loaded programs are sound. -/
theorem sound (loaded : Loaded source program declarations parts validated) : program.Sound := by
  rw [loaded.compiled]
  apply loaded.accepted.sound
  intro rule member
  exact (loaded.readable_rules rule member).condition.branching.mono (by decide)

end Loaded

end Cellular
