import Cellular.Proofs.Engine.Prediction
import Cellular.Proofs.Validation.Accepted
import Cellular.Proofs.Validation.Keys
import Cellular.Proofs.Validation.Shape
import Cellular.Proofs.Validation.Uses

/-!
# Exactly the sensible programs are accepted

A program is acceptable if its declarations have known keys with values of their kinds,
each required key once and the other at most once, and if its parts make sense. Validation
accepts these programs and rejects all others with a list of problems that is not empty,
although its checks leave out what depends on a part that is missing or broken: where a
check is left out, another one has found a problem.
-/

namespace Cellular

/-- The parts of a program make sense together. Bounds are compared with the number of
vectors that the neighbourhood describes. -/
structure Parts.Sensible (parts : Parts) : Prop where
  space : parts.space.Sensible
  shape : parts.shape.Sensible parts.space.rank
  entries : SensibleBlock parts.entries
  edge : SensibleEdge parts.entries parts.edge
  rules : ∀ rule ∈ parts.rules, rule.Sensible (parts.entries.map (·.name.text))
    (Set.ncard {v | parts.shape.Describes parts.space.rank v})

/-- A program that says everything it must, nothing twice, and makes sense. -/
structure Acceptable (program : List Declaration) : Prop where
  fits : ∀ declaration ∈ program, declaration.Fits
  required : ∀ key ∈ Key.required, occurrences program key = 1
  optional : occurrences program .boundary ≤ 1
  parts : ∃ parts, Parts.ofProgram? program = some parts ∧ parts.Sensible

/-! ## What the outline was given -/

namespace Outline

private theorem exists_of_foldl {program : List Declaration} {start : Outline}
    {problems : List Problem} {key : Key} {value : Value}
    (known : (program.foldl
      (fun (outline, problems) declaration =>
        match outline.add declaration with
        | .ok outline => (outline, problems)
        | .error problem => (outline, problems ++ [problem]))
      (start, problems)).1.slot key = some value) :
    start.slot key = some value ∨ ∃ declaration ∈ program, declaration.value = value := by
  induction program generalizing start problems with
  | nil => exact Or.inl known
  | cons declaration program ih =>
      rw [List.foldl_cons] at known
      cases added : start.add declaration with
      | error problem =>
          simp only [added] at known
          rcases ih known with before | ⟨other, member, same⟩
          · exact Or.inl before
          · exact Or.inr ⟨other, List.mem_cons_of_mem _ member, same⟩
      | ok next =>
          simp only [added] at known
          rcases ih known with before | ⟨other, member, same⟩
          · rcases slot_of_add added with ⟨own, _, _, taken, others⟩
            by_cases here : key = own
            · rw [here, taken] at before
              exact Or.inr ⟨declaration, List.mem_cons_self, Option.some.inj before⟩
            · rw [others key here] at before
              exact Or.inl before
          · exact Or.inr ⟨other, List.mem_cons_of_mem _ member, same⟩

/-- Whatever the problems of a program are, its outline has values of the program. -/
theorem exists_of_slot {program : List Declaration} {key : Key} {value : Value}
    (known : (ofProgram program).1.slot key = some value) :
    ∃ declaration ∈ program, declaration.value = value := by
  rcases exists_of_foldl known with before | given
  · cases key <;> exact absurd before nofun
  · exact given

section Readable

variable {program : List Declaration} (readable : ∀ declaration ∈ program, declaration.Readable)

include readable

theorem readable_slot {key : Key} {value : Value}
    (known : (ofProgram program).1.slot key = some value) : value.Readable := by
  rcases exists_of_slot known with ⟨declaration, member, rfl⟩
  exact (readable declaration member).value

theorem one_le_rank {name : Name} {space : Environment}
    (spaced : (ofProgram program).1.environment = some (name, space)) : 1 ≤ space.rank := by
  have slot : (ofProgram program).1.slot .environment = some (.environment space) := by
    rw [Outline.slot, spaced]
    rfl
  have value : space.Readable := readable_slot readable slot
  have rank := value.rank
  omega

theorem shape_ne_nil {key : Name} {shape : Neighborhood}
    (shaped : (ofProgram program).1.neighborhood = some (key, shape)) : shape ≠ .custom [] := by
  have slot : (ofProgram program).1.slot .neighborhood = some (.neighborhood shape) := by
    rw [Outline.slot, shaped]
    rfl
  have value : shape.Readable := readable_slot readable slot
  rintro rfl
  exact value.1 rfl

theorem readable_rules {key : Name} {rules : List (Rule Name)}
    (ruled : (ofProgram program).1.rules = some (key, rules)) : ∀ rule ∈ rules, rule.Readable := by
  have slot : (ofProgram program).1.slot .rules = some (.rules rules) := by
    rw [Outline.slot, ruled]
    rfl
  exact readable_slot readable slot

/-- The rules of a program that was read are checked to the end. -/
theorem exists_checkRules (registry : Option Registry) (most : Option Nat) :
    ∃ checked, (ofProgram program).1.checkRules registry most = .ok checked := by
  unfold Outline.checkRules
  split
  · rename_i key rules registry given
    exact Cellular.exists_checkRules (readable_rules readable given)
  · exact ⟨{}, rfl⟩

/-- The neighbourhood of a program that was read is checked to the end. -/
theorem exists_checkOffsets :
    ∃ problems offsets, (ofProgram program).1.checkOffsets = .ok (problems, offsets) := by
  unfold Outline.checkOffsets
  split
  · rename_i name space key shape spaced shaped
    rcases checkNeighborhood_cases key (one_le_rank readable spaced)
      (shape_ne_nil readable shaped) with ⟨_, listed, done, _⟩ | ⟨_, problems, _, done⟩
    · exact ⟨_, _, done⟩
    · exact ⟨_, _, done⟩
  · exact ⟨_, _, rfl⟩

end Readable

end Outline

/-! ## All problems of a program -/

/-- The registry of a program with states. -/
def registered (outline : Outline) : Option Registry :=
  (outline.states.map fun (_, entries) => checkStates entries).map OpenRegistry.registry

/-- All problems of a program, given those of its neighbourhood and of its rules. -/
def collected (program : List Declaration) (shape rules : List Problem) : List Problem :=
  let outline := (Outline.ofProgram program).1
  (Outline.ofProgram program).2 ++ missingKeys program ++
    ((outline.environment.map fun (_, space) => space.problems).getD []) ++ shape ++
    (((outline.states.map fun (_, entries) => checkStates entries).map
      OpenRegistry.problems).getD []) ++ (outline.checkEdge (registered outline)).1 ++ rules

section Stages

variable {program : List Declaration} {shapeProblems : List Problem} {offsets : Option (List Vec)}
  {checked : CheckedRules}
  (shaped : (Outline.ofProgram program).1.checkOffsets = .ok (shapeProblems, offsets))
  (ruled : (Outline.ofProgram program).1.checkRules (registered (Outline.ofProgram program).1)
    (offsets.map List.length) = .ok checked)

include shaped ruled

theorem validate_of_problems
    (found : collected program shapeProblems checked.problems ≠ []) :
    validate program = .error (.rejected (collected program shapeProblems checked.problems)) := by
  rw [registered] at ruled
  simp only [validate, shaped, ruled, bind, Except.bind, Except.mapError]
  split
  · rename_i clean _ _ _
    exact absurd clean found
  · rfl

private theorem validate_of_clean {space : Environment} {entries : List StateEntry}
    {listed : List Vec} {boundary : Boundary Nat} {name place : Name}
    (clean : collected program shapeProblems checked.problems = [])
    (spaced : (Outline.ofProgram program).1.environment = some (name, space))
    (listedAll : offsets = some listed)
    (stated : (Outline.ofProgram program).1.states = some (place, entries))
    (edged : ((Outline.ofProgram program).1.checkEdge
      (registered (Outline.ofProgram program).1)).2 = some boundary) :
    ∃ validated, validate program = .ok validated := by
  subst listedAll
  simp only [collected] at clean
  rw [registered] at ruled clean edged
  simp only [validate, shaped, ruled, bind, Except.bind, Except.mapError, clean]
  simp only [spaced, stated, Option.map_some] at edged ⊢
  rw [edged]
  exact ⟨_, rfl⟩

end Stages

/-! ## Which programs have problems -/

/-- How the outline of a program holds its parts. -/
private structure Holds (outline : Outline) (parts : Parts) : Prop where
  space : ∃ name, outline.environment = some (name, parts.space)
  shape : ∃ key, outline.neighborhood = some (key, parts.shape)
  entries : ∃ key, outline.states = some (key, parts.entries)
  rules : ∃ key, outline.rules = some (key, parts.rules)
  edge : (outline.boundary.map Prod.snd).getD .void = parts.edge

theorem occurrences_le_one {program : List Declaration}
    (required : ∀ key ∈ Key.required, occurrences program key = 1)
    (optional : occurrences program .boundary ≤ 1) (key : Key) : occurrences program key ≤ 1 := by
  by_cases member : key ∈ Key.required
  · exact Nat.le_of_eq (required key member)
  · cases key <;> first | exact optional | exact absurd (by decide) member

/-- The keys of a program are as they should be exactly if no declaration has a problem and
no key is missing. -/
private theorem keys_clean_iff {program : List Declaration} :
    (Outline.ofProgram program).2 = [] ∧ missingKeys program = [] ↔
      (∀ declaration ∈ program, declaration.Fits) ∧
        (∀ key ∈ Key.required, occurrences program key = 1) ∧
          occurrences program .boundary ≤ 1 := by
  rw [Outline.clean_ofProgram_iff, missingKeys_eq_nil_iff]
  constructor
  · rintro ⟨⟨fits, single⟩, declared⟩
    exact ⟨fits, fun key member => Nat.le_antisymm (single key) (declared key member),
      single .boundary⟩
  · rintro ⟨fits, once, optional⟩
    exact ⟨⟨fits, occurrences_le_one once optional⟩,
      fun key member => Nat.le_of_eq (once key member).symm⟩

private theorem exists_parts {program : List Declaration}
    (clean : (Outline.ofProgram program).2 = []) (complete : missingKeys program = []) :
    ∃ parts, Parts.ofProgram? program = some parts ∧
      Holds (Outline.ofProgram program).1 parts := by
  have slots := Outline.slot_ofProgram clean
  have present : ∀ key ∈ Key.required, ((Outline.ofProgram program).1.slot key).isSome = true := by
    intro key member
    rw [slots key, isSome_valueOf_iff]
    exact missingKeys_eq_nil_iff.mp complete key member
  generalize (Outline.ofProgram program).1 = outline at slots present
  rcases outline with ⟨space?, shape?, entries?, rules?, edge?⟩
  rcases Option.isSome_iff_exists.mp (present .environment (by decide)) with ⟨_, spaced⟩
  rcases Option.isSome_iff_exists.mp (present .neighborhood (by decide)) with ⟨_, shaped⟩
  rcases Option.isSome_iff_exists.mp (present .states (by decide)) with ⟨_, stated⟩
  rcases Option.isSome_iff_exists.mp (present .rules (by decide)) with ⟨_, ruled⟩
  rcases Option.map_eq_some_iff.mp spaced with ⟨⟨name, space⟩, rfl, _⟩
  rcases Option.map_eq_some_iff.mp shaped with ⟨⟨key, shape⟩, rfl, _⟩
  rcases Option.map_eq_some_iff.mp stated with ⟨⟨block, entries⟩, rfl, _⟩
  rcases Option.map_eq_some_iff.mp ruled with ⟨⟨head, rules⟩, rfl, _⟩
  refine ⟨⟨space, shape, (edge?.map Prod.snd).getD .void, entries, rules⟩, ?_, ?_⟩
  · simp only [Parts.ofProgram?, ← slots, Outline.slot, Option.map_some]
    cases edge? <;> rfl
  · exact ⟨⟨name, rfl⟩, ⟨key, rfl⟩, ⟨block, rfl⟩, ⟨head, rfl⟩, rfl⟩

/-- With known states, a boundary has either a problem or a resolved form, and no problem if
it makes sense with states that do. -/
private theorem checkEdge_clean {outline : Outline} {parts : Parts} (holds : Holds outline parts) :
    ((outline.checkEdge (some (checkStates parts.entries).registry)).1 = [] →
      ∃ boundary, (outline.checkEdge (some (checkStates parts.entries).registry)).2 =
        some boundary) ∧
    ((checkStates parts.entries).problems = [] →
      ((outline.checkEdge (some (checkStates parts.entries).registry)).1 = [] ↔
        SensibleEdge parts.entries parts.edge)) := by
  rw [← holds.edge]
  cases given : outline.boundary with
  | none =>
      simp only [Outline.checkEdge, given]
      exact ⟨fun _ => ⟨.void, rfl⟩, fun _ => ⟨fun _ => trivial, fun _ => trivial⟩⟩
  | some entry =>
      simp only [Outline.checkEdge, given]
      exact ⟨checkBoundary_eq_nil_iff.mp, fun clean => checkBoundary_clean_iff clean⟩

private theorem keys_of_validate {program : List Declaration} {validated : Validated}
    (done : validate program = .ok validated) :
    (Outline.ofProgram program).2 = [] ∧ missingKeys program = [] := by
  simp only [validate] at done
  rcases bind_eq_ok_iff.mp done with ⟨⟨shapeProblems, offsets⟩, _, done⟩
  rcases bind_eq_ok_iff.mp done with ⟨checked, _, done⟩
  split at done
  · rename_i clean _ _ _ _
    simp only [List.append_eq_nil_iff] at clean
    exact clean.1.1.1.1.1
  · exact absurd done (by simp [throw, throwThe, MonadExceptOf.throw])

private theorem validate_of_accepted {program : List Declaration} {parts : Parts}
    {validated : Validated} (holds : Holds (Outline.ofProgram program).1 parts)
    (clean : (Outline.ofProgram program).2 = []) (complete : missingKeys program = [])
    (accepted : parts.Accepted validated) : validate program = .ok validated := by
  rcases holds.space with ⟨name, spaced⟩
  rcases holds.shape with ⟨key, given⟩
  rcases holds.entries with ⟨place, stated⟩
  rcases holds.rules with ⟨head, ruled⟩
  rcases validated with ⟨rank, sizes, offsets, boundary, registry, rules, warnings⟩
  rcases accepted with
    ⟨rfl, rfl, spaceFine, shapeFine, listed, nonempty, statesFine, rfl, edged, checked⟩
  dsimp only at shapeFine listed nonempty edged checked
  have shaped : (Outline.ofProgram program).1.checkOffsets = .ok ([], some offsets) := by
    simp only [Outline.checkOffsets, spaced, given, checkNeighborhood, shapeFine, listed,
      List.isEmpty_nil, if_true, bind, Except.bind, List.isEmpty_eq_false_iff.mpr nonempty]
    rfl
  have edge : (Outline.ofProgram program).1.checkEdge
      (some (checkStates parts.entries).registry) = ([], some boundary) := by
    rw [← holds.edge] at edged
    cases bounded : (Outline.ofProgram program).1.boundary with
    | none =>
        rw [bounded] at edged
        simp only [Outline.checkEdge, bounded]
        exact edged key
    | some entry =>
        rw [bounded] at edged
        simp only [Outline.checkEdge, bounded]
        exact edged entry.1
  simp only [validate, shaped, clean, complete, spaced, stated, edge, Outline.checkRules, ruled,
    checked, Option.map_some, Option.getD_some, spaceFine, statesFine, List.append_nil, bind,
    Except.bind, Except.mapError]
  rfl

/-- Programs are accepted exactly if their keys are as they should be and their parts pass
their checks. -/
theorem validate_eq_ok_iff_accepted {program : List Declaration} {validated : Validated} :
    validate program = .ok validated ↔
      ((∀ declaration ∈ program, declaration.Fits) ∧
        (∀ key ∈ Key.required, occurrences program key = 1) ∧
          occurrences program .boundary ≤ 1) ∧
      ∃ parts, Parts.ofProgram? program = some parts ∧ parts.Accepted validated := by
  rw [← keys_clean_iff]
  constructor
  · intro done
    exact ⟨keys_of_validate done, accepted_of_validate done⟩
  · rintro ⟨⟨clean, complete⟩, parts, divided, accepted⟩
    rcases exists_parts clean complete with ⟨parts', divided', holds⟩
    obtain rfl := Option.some.inj (divided.symm.trans divided')
    exact validate_of_accepted holds clean complete accepted

section Verdict

variable {program : List Declaration} {parts : Parts} {shapeProblems : List Problem}
  {offsets : Option (List Vec)} {checked : CheckedRules}
  (readable : ∀ declaration ∈ program, declaration.Readable)
  (holds : Holds (Outline.ofProgram program).1 parts)
  (shaped : (Outline.ofProgram program).1.checkOffsets = .ok (shapeProblems, offsets))
  (ruled : (Outline.ofProgram program).1.checkRules (registered (Outline.ofProgram program).1)
    (offsets.map List.length) = .ok checked)

include readable holds shaped

/-- The neighbourhood is listed exactly if it makes sense. -/
private theorem shape_clean_iff :
    (shapeProblems = [] ↔ parts.shape.Sensible parts.space.rank) ∧
      (shapeProblems = [] → ∃ listed, offsets = some listed ∧
        Set.ncard {v | parts.shape.Describes parts.space.rank v} = listed.length) := by
  rcases holds.space with ⟨name, spaced⟩
  rcases holds.shape with ⟨key, given⟩
  rw [Outline.checkOffsets, spaced, given] at shaped
  rcases checkNeighborhood_cases key (Outline.one_le_rank readable spaced)
    (Outline.shape_ne_nil readable given) with
    ⟨sensible, listed, done, size⟩ | ⟨senseless, problems, found, done⟩
  · rcases Prod.mk.inj (Except.ok.inj (shaped.symm.trans done)) with ⟨rfl, rfl⟩
    exact ⟨⟨fun _ => sensible, fun _ => rfl⟩, fun _ => ⟨listed, rfl, size⟩⟩
  · rcases Prod.mk.inj (Except.ok.inj (shaped.symm.trans done)) with ⟨rfl, rfl⟩
    exact ⟨⟨fun none_found => absurd none_found found, fun sensible => absurd sensible senseless⟩,
      fun none_found => absurd none_found found⟩

include ruled

/-- If keys are as they should be, a program has no problems exactly if its parts make
sense together. -/
private theorem collected_eq_nil_iff (clean : (Outline.ofProgram program).2 = [])
    (complete : missingKeys program = []) :
    collected program shapeProblems checked.problems = [] ↔ parts.Sensible := by
  rcases shape_clean_iff readable holds shaped with ⟨shapely, sized⟩
  rcases checkEdge_clean holds with ⟨_, edged⟩
  rcases holds.space with ⟨name, spaced⟩
  rcases holds.entries with ⟨place, stated⟩
  rcases holds.rules with ⟨head, given⟩
  have known : registered (Outline.ofProgram program).1 =
      some (checkStates parts.entries).registry := by
    rw [registered, stated]
    rfl
  rw [known] at ruled
  simp only [Outline.checkRules, given] at ruled
  simp only [collected, known, clean, complete, spaced, stated, Option.map_some, Option.getD_some,
    List.append_eq_nil_iff, true_and, Environment.problems_eq_nil_iff, shapely,
    problems_checkStates_iff]
  have rules : parts.shape.Sensible parts.space.rank → SensibleBlock parts.entries →
      (checked.problems = [] ↔ ∀ rule ∈ parts.rules, rule.Sensible
        (parts.entries.map (·.name.text))
        (Set.ncard {v | parts.shape.Describes parts.space.rank v})) := by
    intro sensible block
    rcases sized (shapely.mpr sensible) with ⟨listed, rfl, size⟩
    rw [size, ← names_checkStates (problems_checkStates_iff.mpr block)]
    exact checkRules_clean_iff (Outline.readable_rules readable given) ruled
  constructor
  · rintro ⟨⟨⟨⟨space, shape⟩, block⟩, edge⟩, rest⟩
    exact ⟨space, shape, block, (edged (problems_checkStates_iff.mpr block)).mp edge,
      (rules shape block).mp rest⟩
  · rintro ⟨space, shape, block, edge, rest⟩
    exact ⟨⟨⟨⟨space, shape⟩, block⟩, (edged (problems_checkStates_iff.mpr block)).mpr edge⟩,
      (rules shape block).mpr rest⟩

/-- Without problems a program is validated. -/
private theorem exists_validated
    (clean : collected program shapeProblems checked.problems = []) :
    ∃ validated, validate program = .ok validated := by
  rcases holds.space with ⟨name, spaced⟩
  rcases holds.entries with ⟨place, stated⟩
  have known : registered (Outline.ofProgram program).1 =
      some (checkStates parts.entries).registry := by
    rw [registered, stated]
    rfl
  have each := clean
  simp only [collected, known, List.append_eq_nil_iff] at each
  rcases each with ⟨⟨⟨⟨_, shape⟩, _⟩, edge⟩, _⟩
  rcases (shape_clean_iff readable holds shaped).2 shape with ⟨listed, rfl, _⟩
  rcases (checkEdge_clean holds).1 edge with ⟨boundary, edged⟩
  rw [← known] at edged
  exact validate_of_clean shaped ruled clean spaced rfl stated edged

end Verdict

/-- A program that was read and has no problems is validated. -/
theorem exists_validated_of_clean {program : List Declaration} {shapeProblems : List Problem}
    {offsets : Option (List Vec)} {checked : CheckedRules}
    (readable : ∀ declaration ∈ program, declaration.Readable)
    (shaped : (Outline.ofProgram program).1.checkOffsets = .ok (shapeProblems, offsets))
    (ruled : (Outline.ofProgram program).1.checkRules (registered (Outline.ofProgram program).1)
      (offsets.map List.length) = .ok checked)
    (clean : collected program shapeProblems checked.problems = []) :
    ∃ validated, validate program = .ok validated := by
  have keys := clean
  simp only [collected, List.append_eq_nil_iff] at keys
  rcases keys with ⟨⟨⟨⟨⟨⟨fine, complete⟩, _⟩, _⟩, _⟩, _⟩, _⟩
  rcases exists_parts fine complete with ⟨_, _, holds⟩
  exact exists_validated readable holds shaped ruled clean

/-- A program that was read is validated, or it is rejected with problems; it is validated
exactly if it is acceptable. -/
theorem validate_cases {program : List Declaration}
    (readable : ∀ declaration ∈ program, declaration.Readable) :
    (Acceptable program ∧ ∃ validated, validate program = .ok validated) ∨
      (¬Acceptable program ∧ ∃ problems, problems ≠ [] ∧
        validate program = .error (.rejected problems)) := by
  rcases Outline.exists_checkOffsets readable with ⟨shapeProblems, offsets, shaped⟩
  rcases Outline.exists_checkRules readable (registered (Outline.ofProgram program).1)
    (offsets.map List.length) with ⟨checked, ruled⟩
  by_cases clean : collected program shapeProblems checked.problems = []
  · have keys := clean
    simp only [collected, List.append_eq_nil_iff] at keys
    rcases keys with ⟨⟨⟨⟨⟨⟨fine, complete⟩, _⟩, _⟩, _⟩, _⟩, _⟩
    rcases exists_parts fine complete with ⟨parts, divided, holds⟩
    rcases keys_clean_iff.mp ⟨fine, complete⟩ with ⟨fits, required, optional⟩
    have sensible := (collected_eq_nil_iff readable holds shaped ruled fine complete).mp clean
    exact Or.inl ⟨⟨fits, required, optional, parts, divided, sensible⟩,
      exists_validated_of_clean readable shaped ruled clean⟩
  · refine Or.inr ⟨?_, _, clean, validate_of_problems shaped ruled clean⟩
    rintro ⟨fits, required, optional, parts, divided, sensible⟩
    rcases keys_clean_iff.mpr ⟨fits, required, optional⟩ with ⟨fine, complete⟩
    rcases exists_parts fine complete with ⟨parts', divided', holds⟩
    obtain rfl := Option.some.inj (divided.symm.trans divided')
    exact clean ((collected_eq_nil_iff readable holds shaped ruled fine complete).mpr sensible)

/-! ## The verdict -/

/-- Of the programs that can be read, the acceptable ones are validated, and all others are
rejected with at least one problem. -/
theorem validate_eq_ok_iff_acceptable {source : String} {program : List Declaration}
    (read : readProgram source = .ok program) :
    ((∃ validated, validate program = .ok validated) ↔ Acceptable program) ∧
    (¬Acceptable program → ∃ problems, problems ≠ [] ∧
      validate program = .error (.rejected problems)) ∧
    -- a text is validated like its program, unless its neighbourhood has no place in memory
    ∀ memory, ((Outline.ofProgram program).1.lengthFault? memory = none →
        readValidatedInMemory memory source = (validate program).mapError .invalid) ∧
      ∀ fault, (Outline.ofProgram program).1.lengthFault? memory = some fault →
        readValidatedInMemory memory source = .error (.noRoom fault) := by
  have readable := readable_of_readProgram read
  refine ⟨?_, ?_, fun memory => ⟨?_, ?_⟩⟩
  · rcases validate_cases readable with ⟨acceptable, accepted⟩ | ⟨unacceptable, problems, _, done⟩
    · exact ⟨fun _ => acceptable, fun _ => accepted⟩
    · constructor
      · rintro ⟨validated, accepted⟩
        exact absurd (accepted.symm.trans done) nofun
      · exact fun acceptable => absurd acceptable unacceptable
  · intro unacceptable
    rcases validate_cases readable with ⟨acceptable, _⟩ | ⟨_, rejected⟩
    · exact absurd acceptable unacceptable
    · exact rejected
  · intro room
    simp only [readValidatedInMemory, read, room, bind, Except.bind, Except.mapError]
  · intro fault full
    simp only [readValidatedInMemory, read, full, bind, Except.bind, Except.mapError]
    rfl

theorem validate_eq_ok_iff_acceptable_ring : ∃ program validated,
    readProgram ringSource = .ok program ∧ validate program = .ok validated ∧
      Acceptable program := by
  rcases start_ring with ⟨_, _, loaded, _⟩
  rcases bind_eq_ok_iff.mp loaded with ⟨validated, accepted, _⟩
  rcases bind_eq_ok_iff.mp accepted with ⟨program, read, accepted⟩
  rw [mapError_eq_ok_iff] at read accepted
  have acceptable := (validate_eq_ok_iff_acceptable read).1.mp ⟨validated, accepted⟩
  exact ⟨program, validated, read, accepted, acceptable⟩

end Cellular
