import Cellular.Proofs.Source.Names
import Cellular.Proofs.Validation.Reported

/-!
# Problems where they are

Every check reports at names of the part that it looks at: keys at the key of a declaration,
sizes and offsets at their axis, states at a name of their entry, rules at a name of the rule.
So every problem of a program that has a place is reported at a name of the program, and if the
program was read from a text, the text reads this name at the place of the report.
-/

namespace Cellular

private theorem subset_flatMap {α β : Type} {items : List α} {item : α} (f : α → List β)
    (member : item ∈ items) : f item ⊆ items.flatMap f :=
  fun _ own => List.mem_flatMap.mpr ⟨item, member, own⟩

/-! ## Problems among names -/

/-- A problem that is reported at one of the names, if it is reported anywhere. -/
def Problem.IsAmong (names : List Name) (problem : Problem) : Prop :=
  ∀ name ∈ problem.name?, name ∈ names

/-- Problems that are reported at some of the names. -/
def AllAmong (names : List Name) (problems : List Problem) : Prop :=
  ∀ problem ∈ problems, problem.IsAmong names

namespace AllAmong

variable {names others : List Name} {problems more : List Problem}

theorem nil : AllAmong names [] :=
  fun _ member => absurd member List.not_mem_nil

theorem single {problem : Problem} (among : problem.IsAmong names) : AllAmong names [problem] :=
  List.forall_mem_singleton.mpr among

theorem append (first : AllAmong names problems) (last : AllAmong names more) :
    AllAmong names (problems ++ more) :=
  List.forall_mem_append.mpr ⟨first, last⟩

theorem mono (among : AllAmong names problems) (included : names ⊆ others) :
    AllAmong others problems :=
  fun problem member name reported => included (among problem member name reported)

theorem flatMap {α : Type} {items : List α} {found : α → List Problem}
    (each : ∀ item ∈ items, AllAmong names (found item)) :
    AllAmong names (items.flatMap found) := by
  intro problem member
  rcases List.mem_flatMap.mp member with ⟨item, isItem, own⟩
  exact each item isItem problem own

end AllAmong

/-- A problem that is reported at a given name. -/
theorem Problem.isAmong_of_mem {names : List Name} {problem : Problem} {name : Name}
    (reported : problem.name? = some name) (member : name ∈ names) : problem.IsAmong names := by
  intro other own
  obtain rfl := Option.some.inj (reported.symm.trans own)
  exact member

/-! ## Declarations -/

namespace Outline

/-- The declarations that fill the slots of an outline. -/
def declarations (outline : Outline) : List Declaration :=
  (outline.environment.map fun (key, space) => ⟨key, .environment space⟩).toList ++
    (outline.neighborhood.map fun (key, shape) => ⟨key, .neighborhood shape⟩).toList ++
    (outline.states.map fun (key, block) => ⟨key, .states block⟩).toList ++
    (outline.rules.map fun (key, block) => ⟨key, .rules block⟩).toList ++
    (outline.boundary.map fun (key, edge) => ⟨key, .boundary edge⟩).toList

theorem mem_declarations_of_add {outline next : Outline} {declaration : Declaration}
    (added : outline.add declaration = .ok next) {other : Declaration}
    (member : other ∈ next.declarations) : other ∈ outline.declarations ∨ other = declaration := by
  rcases declaration with ⟨name, value⟩
  simp only [add] at added
  split at added
  · exact absurd added (by simp)
  split at added
  case h_6 => exact absurd added (by simp)
  all_goals
    rcases map_eq_ok_iff.mp added with ⟨filled, done, rfl⟩
    rcases fillSlot_eq_ok done with ⟨free, rfl⟩
    simp only [declarations, List.mem_append, Option.map_some, Option.toList_some,
      List.mem_singleton] at member ⊢
    tauto

/-- What is wrong with a declaration is reported at its key. -/
theorem name?_of_add {outline : Outline} {declaration : Declaration} {problem : Problem}
    (failed : outline.add declaration = .error problem) :
    problem.name? = some declaration.key := by
  rcases declaration with ⟨name, value⟩
  have taken {β : Type} {slot : Option (Name × β)} {given : β} {put : Option (Name × β) → Outline}
      (failed : (fillSlot slot name given).map put = .error problem) :
      problem.name? = some name := by
    cases slot with
    | none => exact absurd failed nofun
    | some first =>
        obtain rfl := Except.error.inj failed
        rfl
  simp only [add] at failed
  split at failed
  · obtain rfl := Except.error.inj failed
    rfl
  split at failed
  case h_6 =>
    obtain rfl := Except.error.inj failed
    rfl
  all_goals exact taken failed

private theorem located_foldl {program whole : List Declaration} {start outline : Outline}
    {problems found : List Problem} (included : program ⊆ whole)
    (before : start.declarations ⊆ whole) (among : AllAmong (whole.map Declaration.key) problems)
    (folded : program.foldl
      (fun (outline, problems) declaration =>
        match outline.add declaration with
        | .ok outline => (outline, problems)
        | .error problem => (outline, problems ++ [problem]))
      (start, problems) = (outline, found)) :
    outline.declarations ⊆ whole ∧ AllAmong (whole.map Declaration.key) found := by
  induction program generalizing start problems with
  | nil =>
      rcases Prod.mk.inj folded with ⟨rfl, rfl⟩
      exact ⟨before, among⟩
  | cons declaration program ih =>
      rw [List.foldl_cons] at folded
      rcases List.cons_subset.mp included with ⟨here, others⟩
      cases added : start.add declaration with
      | error problem =>
          simp only [added] at folded
          exact ih others before (among.append (.single (Problem.isAmong_of_mem
            (name?_of_add added) (List.mem_map_of_mem here)))) folded
      | ok next =>
          simp only [added] at folded
          refine ih others ?_ among folded
          intro other member
          rcases mem_declarations_of_add added member with earlier | rfl
          · exact before earlier
          · exact here

/-- The outline of a program is made of its declarations, and what is wrong with these is
reported at their keys. -/
theorem located_ofProgram (program : List Declaration) :
    (ofProgram program).1.declarations ⊆ program ∧
      AllAmong (program.map Declaration.key) (ofProgram program).2 :=
  located_foldl (List.Subset.refl _) (List.nil_subset _) .nil rfl

end Outline

/-! ## Sizes and offsets -/

theorem Environment.allAmong_problems (space : Environment) :
    AllAmong space.names space.problems := by
  apply AllAmong.flatMap
  rintro ⟨axis, size⟩ member
  have own : axis ∈ space.names := List.mem_map_of_mem member
  change AllAmong _ (sizeProblem space.rank axis size)
  rw [sizeProblem]
  split
  · exact .single (Problem.isAmong_of_mem rfl own)
  split
  · exact .single (Problem.isAmong_of_mem rfl own)
  · exact .nil

theorem Neighborhood.allAmong_problems (rank : Nat) (shape : Neighborhood) :
    AllAmong shape.names (shape.problems rank) := by
  cases shape with
  | moore | vonNeumann => exact .nil
  | custom rules =>
      apply AllAmong.flatMap
      intro rule member
      have own : rule.axis ∈ (custom rules).names := List.mem_map_of_mem member
      apply AllAmong.append
      · split
        · exact .single (Problem.isAmong_of_mem rfl own)
        · exact .nil
      · split
        · exact .single (Problem.isAmong_of_mem rfl own)
        · exact .nil

theorem allAmong_checkNeighborhood {rank : Nat} {key : Name} {shape : Neighborhood}
    {problems : List Problem} {offsets : Option (List Vec)}
    (done : checkNeighborhood rank key shape = .ok (problems, offsets)) :
    AllAmong (key :: shape.names) problems := by
  rw [checkNeighborhood] at done
  split at done
  · rcases bind_eq_ok_iff.mp done with ⟨listed, _, done⟩
    rw [← (Prod.mk.inj (pure_eq_ok_iff.mp done)).1]
    split
    · exact .single (Problem.isAmong_of_mem rfl List.mem_cons_self)
    · exact .nil
  · rw [← (Prod.mk.inj (pure_eq_ok_iff.mp done)).1]
    exact (shape.allAmong_problems rank).mono (List.subset_cons_self _ _)

/-! ## States -/

/-- An attribute is faulty at the name of its state or at its own key. -/
theorem OpenAttributes.allAmong_add {registry : Registry} {state : Name}
    {attributes : OpenAttributes} {names : List Name} {mark : Attribute}
    (among : AllAmong names attributes.problems) (here : state ∈ names)
    (own : mark.names ⊆ names) : AllAmong names (attributes.add registry state mark).problems := by
  cases mark with
  | defaultMark =>
      apply among.append
      split
      · exact .single (Problem.isAmong_of_mem rfl here)
      split
      · exact .single (Problem.isAmong_of_mem rfl here)
      · exact .nil
  | keyed key token =>
      rw [OpenAttributes.add]
      split
      · exact among.append (.single (Problem.isAmong_of_mem rfl (own List.mem_cons_self)))
      · exact among

theorem OpenAttributes.allAmong_foldl {registry : Registry} {state : Name} {names : List Name}
    (here : state ∈ names) {marks : List Attribute} {attributes : OpenAttributes}
    (own : ∀ mark ∈ marks, mark.names ⊆ names) (among : AllAmong names attributes.problems) :
    AllAmong names (marks.foldl (OpenAttributes.add registry state) attributes).problems := by
  induction marks generalizing attributes with
  | nil => exact among
  | cons mark marks ih =>
      rcases List.forall_mem_cons.mp own with ⟨first, others⟩
      exact ih others (allAmong_add among here first)

theorem OpenRegistry.allAmong_add {states : OpenRegistry} {names : List Name} {entry : StateEntry}
    (among : AllAmong names states.problems) (own : entry.names ⊆ names) :
    AllAmong names (states.add entry).problems := by
  rcases List.cons_subset.mp own with ⟨here, marks⟩
  rw [OpenRegistry.add]
  split
  · exact among.append (.single (Problem.isAmong_of_mem rfl here))
  · refine among.append (OpenAttributes.allAmong_foldl here ?_ .nil)
    intro mark member
    exact List.Subset.trans (subset_flatMap _ member) marks

theorem allAmong_checkStates (entries : List StateEntry) :
    AllAmong (entries.flatMap StateEntry.names) (checkStates entries).problems := by
  suffices ∀ (block : List StateEntry) (states : OpenRegistry) (names : List Name),
      AllAmong names states.problems → (∀ entry ∈ block, entry.names ⊆ names) →
        AllAmong names (block.foldl OpenRegistry.add states).problems from
    this entries {} _ .nil fun entry member => subset_flatMap _ member
  intro block states names among own
  induction block generalizing states with
  | nil => exact among
  | cons entry block ih =>
      rcases List.forall_mem_cons.mp own with ⟨first, others⟩
      exact ih _ (OpenRegistry.allAmong_add among first) others

/-! ## Boundary and rules -/

theorem allAmong_checkBoundary (registry : Registry) (key : Name) (edge : Boundary (Option Name)) :
    AllAmong (key :: edge.names) (checkBoundary registry key edge).1 := by
  cases edge with
  | void | wrap => exact .nil
  | static state =>
      cases state with
      | none =>
          rw [checkBoundary]
          split
          · exact .nil
          · exact .single (Problem.isAmong_of_mem rfl List.mem_cons_self)
      | some state =>
          rw [checkBoundary]
          split
          · exact .nil
          · exact .single (Problem.isAmong_of_mem rfl
              (List.mem_cons_of_mem _ (List.mem_singleton.mpr rfl)))

/-- A fault of a rule is listed with a name of the rule. -/
theorem Rule.mem_names_of_mem_faults {names : List String} {most : Option Nat} {rule : Rule Name}
    {fault : Name × Problem} (found : fault ∈ rule.faults names most) : fault.1 ∈ rule.names := by
  rcases List.mem_append.mp found with found | found
  · rcases List.mem_append.mp found with found | found <;>
      obtain rfl := eq_of_mem_faultUnless found
    · exact List.mem_cons_self
    · exact List.mem_cons_of_mem _ List.mem_cons_self
  · split at found
    · obtain rfl := List.mem_singleton.mp found
      exact List.mem_cons_self
    · rcases List.mem_flatMap.mp found with ⟨test, member, found⟩
      rw [(CountTest.name?_of_mem_faults found).1]
      exact List.mem_cons_of_mem _ (List.mem_cons_of_mem _ (List.mem_map_of_mem member))

theorem CheckedRules.Reports.allAmong {registry : Registry} {most : Option Nat}
    {rules : List (Rule Name)} {checked : CheckedRules}
    (reports : checked.Reports registry most rules) :
    AllAmong (rules.flatMap Rule.names) checked.problems := by
  intro problem member
  rw [reports.problems] at member
  rcases List.mem_map.mp member with ⟨fault, found, rfl⟩
  rcases List.mem_flatMap.mp found with ⟨rule, isRule, own⟩
  exact Problem.isAmong_of_mem (reports.places fault found).1
    (List.mem_flatMap.mpr ⟨rule, isRule, Rule.mem_names_of_mem_faults own⟩)

theorem CheckedRules.Reports.source_mem {registry : Registry} {most : Option Nat}
    {rules : List (Rule Name)} {checked : CheckedRules}
    (reports : checked.Reports registry most rules) {warning : Warning}
    (member : warning ∈ checked.warnings) : warning.source ∈ rules.flatMap Rule.names := by
  rw [reports.warnings] at member
  rcases List.mem_map.mp member with ⟨rule, kept, rfl⟩
  have isRule := (List.mem_filter.mp (List.mem_filter.mp kept).1).1
  exact List.mem_flatMap.mpr ⟨rule, isRule, List.mem_cons_self⟩

/-! ## Whole programs -/

section Program

variable {program : List Declaration}

theorem names_subset_of_mem {declaration : Declaration}
    (member : declaration ∈ (Outline.ofProgram program).1.declarations) :
    declaration.names ⊆ namesOf program :=
  subset_flatMap _ ((Outline.located_ofProgram program).1 member)

theorem allAmong_keys : AllAmong (namesOf program) (Outline.ofProgram program).2 := by
  apply (Outline.located_ofProgram program).2.mono
  intro key member
  rcases List.mem_map.mp member with ⟨declaration, declared, rfl⟩
  exact List.mem_flatMap.mpr ⟨declaration, declared, List.mem_cons_self⟩

/-- A missing key is reported nowhere. -/
theorem allAmong_missingKeys : AllAmong (namesOf program) (missingKeys program) := by
  intro problem member name reported
  rcases List.mem_map.mp member with ⟨key, _, rfl⟩
  exact absurd reported nofun

theorem allAmong_environment : AllAmong (namesOf program)
    (((Outline.ofProgram program).1.environment.map fun (_, space) => space.problems).getD []) := by
  cases spaced : (Outline.ofProgram program).1.environment with
  | none => exact .nil
  | some given =>
      rcases given with ⟨key, space⟩
      have member : ⟨key, .environment space⟩ ∈ (Outline.ofProgram program).1.declarations := by
        simp [Outline.declarations, spaced]
      exact space.allAmong_problems.mono
        (List.Subset.trans (List.subset_cons_self _ _) (names_subset_of_mem member))

theorem allAmong_checkOffsets {shapeProblems : List Problem} {offsets : Option (List Vec)}
    (shaped : (Outline.ofProgram program).1.checkOffsets = .ok (shapeProblems, offsets)) :
    AllAmong (namesOf program) shapeProblems := by
  unfold Outline.checkOffsets at shaped
  split at shaped
  · rename_i name space key shape _ given
    have member : ⟨key, .neighborhood shape⟩ ∈ (Outline.ofProgram program).1.declarations := by
      simp [Outline.declarations, given]
    exact (allAmong_checkNeighborhood shaped).mono (names_subset_of_mem member)
  · rw [← (Prod.mk.inj (Except.ok.inj shaped)).1]
    exact .nil

theorem allAmong_states : AllAmong (namesOf program)
    ((((Outline.ofProgram program).1.states.map fun (_, entries) => checkStates entries).map
      OpenRegistry.problems).getD []) := by
  cases stated : (Outline.ofProgram program).1.states with
  | none => exact .nil
  | some given =>
      rcases given with ⟨key, entries⟩
      have member : ⟨key, .states entries⟩ ∈ (Outline.ofProgram program).1.declarations := by
        simp [Outline.declarations, stated]
      exact (allAmong_checkStates entries).mono
        (List.Subset.trans (List.subset_cons_self _ _) (names_subset_of_mem member))

theorem allAmong_checkEdge (registry : Option Registry) :
    AllAmong (namesOf program) ((Outline.ofProgram program).1.checkEdge registry).1 := by
  unfold Outline.checkEdge
  split
  · rename_i key edge registry given
    have member : ⟨key, .boundary edge⟩ ∈ (Outline.ofProgram program).1.declarations := by
      simp [Outline.declarations, given]
    exact (allAmong_checkBoundary registry key edge).mono (names_subset_of_mem member)
  · exact .nil

/-- Problems and warnings of the rules are reported at names of the rules. -/
theorem located_checkRules (readable : ∀ declaration ∈ program, declaration.Readable)
    {registry : Option Registry} {most : Option Nat} {checked : CheckedRules}
    (ruled : (Outline.ofProgram program).1.checkRules registry most = .ok checked) :
    AllAmong (namesOf program) checked.problems ∧
      ∀ warning ∈ checked.warnings, warning.source ∈ namesOf program := by
  unfold Outline.checkRules at ruled
  split at ruled
  · rename_i key rules registry given
    have member : ⟨key, .rules rules⟩ ∈ (Outline.ofProgram program).1.declarations := by
      simp [Outline.declarations, given]
    have included := List.Subset.trans (List.subset_cons_self _ _) (names_subset_of_mem member)
    rcases exists_reports registry most fun rule isRule =>
      (Outline.readable_rules readable given rule isRule).condition with ⟨found, done, reports⟩
    obtain rfl := Except.ok.inj (ruled.symm.trans done)
    exact ⟨reports.allAmong.mono included,
      fun warning warned => included (reports.source_mem warned)⟩
  · obtain rfl := Except.ok.inj ruled
    exact ⟨.nil, fun _ member => absurd member List.not_mem_nil⟩

/-- Whatever is wrong with a program, every problem is reported at one of its names. -/
theorem located_of_rejected (readable : ∀ declaration ∈ program, declaration.Readable)
    {problems : List Problem} (rejected : validate program = .error (.rejected problems)) :
    AllAmong (namesOf program) problems := by
  rcases Outline.exists_checkOffsets readable with ⟨shapeProblems, offsets, shaped⟩
  rcases Outline.exists_checkRules readable (registered (Outline.ofProgram program).1)
    (offsets.map List.length) with ⟨checked, ruled⟩
  by_cases clean : collected program shapeProblems checked.problems = []
  · rcases exists_validated_of_clean readable shaped ruled clean with ⟨_, accepted⟩
    exact absurd (rejected.symm.trans accepted) nofun
  · have known := validate_of_problems shaped ruled clean
    obtain rfl := ValidationFault.rejected.inj (Except.error.inj (rejected.symm.trans known))
    exact (((((allAmong_keys.append allAmong_missingKeys).append allAmong_environment).append
      (allAmong_checkOffsets shaped)).append allAmong_states).append
        (allAmong_checkEdge _)).append (located_checkRules readable ruled).1

/-- So is every warning about a program that is accepted. -/
theorem located_of_accepted (readable : ∀ declaration ∈ program, declaration.Readable)
    {validated : Validated} (accepted : validate program = .ok validated) :
    ∀ warning ∈ validated.warnings, warning.source ∈ namesOf program := by
  simp only [validate] at accepted
  rcases bind_eq_ok_iff.mp accepted with ⟨_, _, accepted⟩
  rcases bind_eq_ok_iff.mp accepted with ⟨checked, ruled, accepted⟩
  rw [mapError_eq_ok_iff] at ruled
  split at accepted
  · obtain rfl := pure_eq_ok_iff.mp accepted
    exact (located_checkRules readable ruled).2
  · exact absurd accepted (by simp [throw, throwThe, MonadExceptOf.throw])

end Program

/-- Places are faithful: every name of a program that was read remembers where the text reads
it, these places come in strictly increasing order, and whatever validation reports at a place
is reported at a name that the text reads there. -/
theorem places_faithful {source : String} {program : List Declaration}
    (read : readProgram source = .ok program) :
    (∀ name ∈ namesOf program, name.StandsIn source) ∧
    (∃ places : List Position, (namesOf program).map Name.place = places.map some ∧
      places.Pairwise Position.Before) ∧
    (∀ problems, validate program = .error (.rejected problems) →
      ∀ problem ∈ problems, ∀ place, problem.place? = some place →
        ∃ name ∈ namesOf program, problem.name? = some name ∧ name.place = some place ∧
          place.Shows source.toList name.text.toList) ∧
    ∀ validated, validate program = .ok validated → ∀ warning ∈ validated.warnings,
      warning.source ∈ namesOf program ∧ ∃ place, warning.place? = some place ∧
        place.Shows source.toList warning.source.text.toList := by
  rcases exists_standing read with ⟨standing, increasing⟩
  have readable := readable_of_readProgram read
  refine ⟨standing, increasing, ?_, ?_⟩
  · intro problems rejected problem found place reported
    rcases Option.bind_eq_some_iff.mp reported with ⟨name, named, placed⟩
    have member := located_of_rejected readable rejected problem found name named
    rcases standing name member with ⟨own, known, shown⟩
    obtain rfl := Option.some.inj (placed.symm.trans known)
    exact ⟨name, member, named, placed, shown⟩
  · intro validated accepted warning warned
    have member := located_of_accepted readable accepted warning warned
    exact ⟨member, standing _ member⟩

/-- Words that are run together, with a comment and with blanks of all kinds. -/
def gluedSource : String :=
  "states:=\x7bA::(default,c(red))B\x7d# no\x0cend\n\trules\r:=\x7bfrom\x0cA to//B\n" ++
    "A:=!neighborhood(B)<1\x7d"

theorem places_faithful_glued : ∃ program, readProgram gluedSource = .ok program ∧
    namesOf program = [⟨"states", some ⟨1, 1⟩⟩, ⟨"A", some ⟨1, 10⟩⟩, ⟨"c", some ⟨1, 22⟩⟩,
      ⟨"red", some ⟨1, 24⟩⟩, ⟨"B", some ⟨1, 29⟩⟩, ⟨"rules", some ⟨2, 2⟩⟩, ⟨"A", some ⟨2, 16⟩⟩,
      ⟨"A", some ⟨3, 1⟩⟩, ⟨"B", some ⟨3, 18⟩⟩] ∧
    ∀ name ∈ namesOf program, name.StandsIn gluedSource := by
  have known : (readProgram gluedSource).toOption.map namesOf = some [⟨"states", some ⟨1, 1⟩⟩,
      ⟨"A", some ⟨1, 10⟩⟩, ⟨"c", some ⟨1, 22⟩⟩, ⟨"red", some ⟨1, 24⟩⟩, ⟨"B", some ⟨1, 29⟩⟩,
      ⟨"rules", some ⟨2, 2⟩⟩, ⟨"A", some ⟨2, 16⟩⟩, ⟨"A", some ⟨3, 1⟩⟩,
      ⟨"B", some ⟨3, 18⟩⟩] := by
    decide +kernel
  rcases Option.map_eq_some_iff.mp known with ⟨program, accepted, names⟩
  have read := eq_ok_of_toOption accepted
  exact ⟨program, read, names, (places_faithful read).1⟩

end Cellular
