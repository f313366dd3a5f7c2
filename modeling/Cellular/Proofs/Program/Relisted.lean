import Cellular.Proofs.Program.Lines
import Cellular.Proofs.Source.RoundTrip
import Cellular.Proofs.Validation.Replaced

/-!
# Programs with listed rules

The lines of rules in a description are rules of a source text, with all names that they
need. As a block they may stand where the rules of the program stood: the program is accepted
again and has the same clauses. The rules are sorted by then, and sorting them once more does
not change the order of the rules of a state.
-/

namespace Cellular

/-! ## Listed rules -/

/-- The listed form of a rule. -/
def Rule.listed (rule : Rule Name) : String :=
  ruleText rule.source.text rule.target.text (rule.condition.listed CountTest.text)

/-- What is listed of a rule is read as the rule. -/
theorem Rule.Readable.listed_written {rule : Rule Name} (readable : rule.Readable) :
    Written RulePhrase rule.anchored rule.listed :=
  rule_written readable.source readable.target
    readable.condition.listed_written.conjunction.disjunction

/-- The line of a rule by number is the listed form of the rule by name. -/
theorem Program.ruleLine_eq (program : Program) (rule : Rule Nat) :
    program.ruleLine (rule.source, rule.clause) = (rule.map program.registry.named).listed := by
  rw [Rule.listed, Rule.map, Condition.listed_map]
  rfl

namespace Rule.ResolvesTo

variable {registry : Registry} {most : Option Nat} {rule : Rule Name} {own : Rule Nat}

/-- By the names of its states a resolved rule can be read. -/
theorem readable_named (resolves : rule.ResolvesTo registry most own) (readable : rule.Readable) :
    (own.map registry.named).Readable where
  source := Registry.named_spelled readable.source resolves.source
  target := Registry.named_spelled readable.target resolves.target
  condition := resolves.condition.readable_named readable.condition

/-- By the names of its states a resolved rule is resolved to itself. -/
theorem resolve_named (resolves : rule.ResolvesTo registry most own) (readable : rule.Readable)
    (distinct : registry.names.Nodup) (shallow : rule.condition.depth ≤ maxDepth) :
    (own.map registry.named).resolve registry most = .ok ([], some own) := by
  apply Rule.resolve_clean_iff.mpr
  constructor
  · rw [Rule.map, Condition.depth_map, resolves.condition.depth_eq]
    exact shallow
  constructor
  · exact Registry.indexOf?_nameOf distinct (Registry.indexOf?_lt resolves.source)
  constructor
  · exact Registry.indexOf?_nameOf distinct (Registry.indexOf?_lt resolves.target)
  · exact resolves.condition.resolveBy_named distinct
      (readable.condition.branching.mono (by decide))

end Rule.ResolvesTo

/-! ## The rules of a program once more -/

/-- The rules of a program as they are listed: sorted, and by the names of their states. -/
def Validated.listedRules (validated : Validated) : List (Rule Name) :=
  (sortedRules validated.registry.states.length validated.rules).map
    (Rule.map validated.registry.named)

theorem Validated.ruleLines_compile {validated : Validated}
    (apart : ∀ rule ∈ validated.rules, rule.condition ≠ .always) :
    validated.compile.ruleLines = validated.listedRules.map Rule.listed := by
  rw [Program.ruleLines, ruleClauses_compile apart, List.map_map, listedRules, List.map_map]
  exact List.map_congr_left fun rule _ => validated.compile.ruleLine_eq rule

section Accepted

variable {parts : Parts} {validated : Validated} (accepted : parts.Accepted validated)
  (readable : ∀ rule ∈ parts.rules, rule.Readable)

include accepted

/-- No rule is lost on the way to the clauses. -/
theorem Parts.Accepted.length_ruleClauses :
    validated.compile.ruleClauses.length = parts.rules.length := by
  rw [Validated.ruleClauses_compile accepted.condition_ne_always, List.length_map,
    (sortedRules_perm accepted.source_lt).length_eq, accepted.rules_resolve.length_eq]

include readable

theorem Parts.Accepted.readable_listedRules : ∀ rule ∈ validated.listedRules, rule.Readable := by
  intro listed member
  rcases List.mem_map.mp member with ⟨own, sorted, rfl⟩
  rcases exists_of_mem_right accepted.rules_resolve (mem_sortedRules.mp sorted).1 with
    ⟨rule, given, resolves⟩
  exact resolves.readable_named (readable rule given)

/-- The listed rules are resolved to the sorted ones. -/
theorem Parts.Accepted.checkRules_listedRules :
    ∃ warnings, checkRules validated.registry (some validated.offsets.length)
      validated.listedRules =
        .ok ⟨[], sortedRules validated.registry.states.length validated.rules, warnings⟩ := by
  apply checkRules_clean_iff_forall₂.mpr
  rw [Validated.listedRules, List.forall₂_map_left_iff, List.forall₂_same]
  intro own sorted
  have clean := checkRules_clean_iff_forall₂.mp ⟨validated.warnings, accepted.rules⟩
  rcases exists_of_mem_right clean (mem_sortedRules.mp sorted).1 with ⟨rule, given, done⟩
  rcases Rule.resolvesTo_of_clean done with ⟨_, same, resolves⟩
  obtain rfl := Option.some.inj same
  exact resolves.resolve_named (readable rule given) accepted.distinct
    (Rule.resolve_clean_iff.mp done).1

end Accepted

/-- Sorted rules are compiled to the same program. -/
theorem Validated.compile_sortedRules (validated : Validated) (warnings : List Warning) :
    Validated.compile { validated with
        rules := sortedRules validated.registry.states.length validated.rules, warnings } =
      { validated.compile with warnings } := by
  have rows : (List.range validated.registry.states.length).map
      (clausesOf (sortedRules validated.registry.states.length validated.rules)) =
        (List.range validated.registry.states.length).map (clausesOf validated.rules) :=
    List.map_congr_left fun state member =>
      clausesOf_sortedRules (List.mem_range.mp member) validated.rules
  simp only [compile, rows]

/-! ## Texts with listed rules -/

/-- The text of a program with the given lines as its rules. -/
def relistedText (lines : List String) (program : List Declaration) : Except TreeFault String := do
  return programText (← program.mapM fun declaration =>
    if declaration.key.text = Key.rules.text then
      .ok (declarationText declaration.key.text (rulesText lines))
    else declaration.text)

/-- Rules that are listed in place of others are read as they are. -/
theorem exists_relistedText {program : List Declaration}
    (readable : ∀ declaration ∈ program, declaration.Readable) {rules : List (Rule Name)}
    (listed : ∀ rule ∈ rules, rule.Readable) :
    ∃ text read, relistedText (rules.map Rule.listed) program = .ok text ∧
      readProgram text = .ok read ∧
      read.map Declaration.anchored =
        (assign .rules (.rules rules) program).map Declaration.anchored := by
  let written (declaration : Declaration) : String :=
    declarationText declaration.key.text
      (if declaration.key.text = Key.rules.text then rulesText (rules.map Rule.listed)
      else declaration.value.printed)
  have texts : program.mapM (fun declaration =>
      if declaration.key.text = Key.rules.text then
        .ok (declarationText declaration.key.text (rulesText (rules.map Rule.listed)))
      else declaration.text) = Except.ok (program.map written) := by
    apply mapM_eq_ok_map
    intro declaration member
    by_cases isRules : declaration.key.text = Key.rules.text
    · simp only [written, if_pos isRules]
    · simp only [written, if_neg isRules, (readable declaration member).text_eq]
      rfl
  have assigned : program.map written = (assign .rules (.rules rules) program).map written := by
    rw [assign, List.map_map]
    apply List.map_congr_left
    intro declaration _
    by_cases isRules : declaration.key.text = Key.rules.text
    · simp only [written, Function.comp, if_pos isRules]
    · simp only [written, Function.comp, if_neg isRules]
  have each : ∀ declaration ∈ assign .rules (.rules rules) program,
      Written ClearDeclarationPhrase declaration.anchored (written declaration) := by
    intro declaration member
    have own := readable_assign (by exact listed) readable declaration member
    apply declaration_written own.key own.value.clear
    rcases List.mem_map.mp member with ⟨before, _, rfl⟩
    by_cases isRules : before.key.text = Key.rules.text
    · simp only [if_pos isRules]
      exact rules_written fun rule inRules => (listed rule inRules).listed_written
    · simp only [if_neg isRules] at own ⊢
      exact value_written own.value
  rcases readProgram_of_written each with ⟨read, done, same⟩
  refine ⟨programText (program.map written), read, ?_, ?_, same⟩
  · rw [relistedText, texts]
    rfl
  · rw [assigned]
    exact done

/-! ## Loading a listed program -/

/-- Whatever text says the same with the listed rules is loaded as the same program. -/
theorem Loaded.load_listedRules {source text : String} {program : Program}
    {declarations read : List Declaration} {parts : Parts} {validated : Validated}
    (loaded : Loaded source program declarations parts validated)
    (accepted : validate declarations = .ok validated) (again : readProgram text = .ok read)
    (same : read.map Declaration.anchored =
      (assign .rules (.rules validated.listedRules) declarations).map Declaration.anchored) :
    ∃ warnings, load text = .ok { program with warnings } := by
  rcases loaded.accepted.checkRules_listedRules loaded.readable_rules with ⟨warned, checked⟩
  have replaced := validate_assign_rules accepted checked
  rcases validate_of_anchored same replaced with ⟨warnings, accepted'⟩
  use warnings
  rw [loaded.compiled, ← validated.compile_sortedRules warnings]
  exact load_eq_ok_iff.mpr ⟨read, _, again, accepted', rfl⟩

/-- The description of a loaded program tells the number of its rules, and its lines of rules
are rules of a source text. The program is loaded again with these lines as its rules, or from
any other text that says the same, and is the same then but for its warnings: every state has
its conditions and targets, in their order. -/
theorem load_relistedText {source : String} {program : Program}
    (loaded : load source = .ok program) {name : Option String}
    (plain : ∀ given ∈ name, Text.OneLine given) :
    ∃ declarations rules, readProgram source = .ok declarations ∧
      valueOf declarations .rules = some (.rules rules) ∧
      -- one line tells the number of the rules
      (∀ verbose, ∃ text, program.description name verbose = .ok text ∧
        ∀ n, toString n ++ " rules" ∈ Text.lines text ↔ n = rules.length) ∧
      -- the lines that begin like rules are read and loaded in their place
      ∃ text relisted listed read, program.description name true = .ok text ∧
        relistedText (Text.fromLines text) declarations = .ok relisted ∧
        readProgram relisted = .ok read ∧ read.map Declaration.anchored =
          (assign .rules (.rules listed) declarations).map Declaration.anchored ∧
        (∃ again, load relisted = .ok again ∧ again.clauses = program.clauses) ∧
        ∀ other read', readProgram other = .ok read' → read'.map Declaration.anchored =
            (assign .rules (.rules listed) declarations).map Declaration.anchored →
          ∃ warnings, load other = .ok { program with warnings } := by
  rcases load_eq_ok_iff.mp loaded with ⟨declarations, validated, done, accepted, rfl⟩
  rcases accepted_of_validate accepted with ⟨parts, divided, passes⟩
  have origin : Loaded source validated.compile declarations parts validated :=
    ⟨done, divided, passes, rfl⟩
  have spelled : ∀ state ∈ validated.compile.registry.states, state.Spelled := by
    rw [origin.registry_eq, passes.registry]
    exact spelled_checkStates origin.readable_entries
  rcases Parts.ofProgram?_eq_some_iff.mp divided with ⟨_, _, _, ruled, _⟩
  use declarations, parts.rules, done, ruled
  constructor
  · intro verbose
    refine ⟨_, validated.compile.description_eq name verbose, ?_⟩
    intro n
    rw [Program.lines_sentences spelled plain, Program.rules_mem_sentences_iff spelled plain,
      passes.length_ruleClauses]
  · have lines : Text.fromLines ("\n".intercalate (validated.compile.sentences name true)) =
        validated.listedRules.map Rule.listed := by
      rw [Program.fromLines_sentences spelled plain,
        Validated.ruleLines_compile passes.condition_ne_always]
    rcases exists_relistedText (readable_of_readProgram done)
        (passes.readable_listedRules origin.readable_rules) with
      ⟨relisted, read, written, again, same⟩
    rw [← lines] at written
    refine ⟨_, relisted, validated.listedRules, read, validated.compile.description_eq name true,
      written, again, same, ?_, ?_⟩
    · rcases origin.load_listedRules accepted again same with ⟨warnings, loaded'⟩
      exact ⟨_, loaded', rfl⟩
    · exact fun other read' again' same' => origin.load_listedRules accepted again' same'

/-- The ring of two cells has one rule, and is loaded with the line of this rule. -/
theorem load_relistedText_ring : ∃ program declarations rules text relisted again,
    load ringSource = .ok program ∧ readProgram ringSource = .ok declarations ∧
      valueOf declarations .rules = some (.rules rules) ∧
      program.description none true = .ok text ∧
      (toString rules.length ++ " rules" ∈ Text.lines text) ∧
      relistedText (Text.fromLines text) declarations = .ok relisted ∧
      load relisted = .ok again ∧ again.clauses = program.clauses := by
  rcases load_ring with ⟨program, _, loaded, _⟩
  have unnamed : ∀ given ∈ (none : Option String), Text.OneLine given :=
    fun _ given => absurd given nofun
  obtain ⟨declarations, rules, done, ruled, counts, text, relisted, listed, read, described,
    written, _, _, ⟨again, loaded', same⟩, _⟩ := load_relistedText loaded unnamed
  rcases counts true with ⟨text', described', number⟩
  obtain rfl := Except.ok.inj (described.symm.trans described')
  exact ⟨program, declarations, rules, text, relisted, again, loaded, done, ruled, described,
    (number _).mpr rfl, written, loaded', same⟩

end Cellular
